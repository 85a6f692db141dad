import GenerationalCache.Operations
import GenerationalCache.Scenario.Step
import GenerationalCache.Snapshot
import Std.Data.TreeSet

/-!
# Sessions

A session is a cache in a small world: a provider in memory, listeners that record every call and may
react to it, a log, and results and entries that steps refer to by name. It runs the programs of the
cache's operations and says what happens inside each action. In particular a call of a listener, and a
report of the provider, may run further operations on the same cache before the action is over.

Reactions nest. How deep they may nest is bounded, which also bounds every run.
-/

namespace GenerationalCache.Scenario

variable {σ : Type}

/-- What stays the same during a session. -/
structure Script (σ : Type) where
  /-- The operations of the cache. -/
  operations : Operations σ String Item
  /-- What the cache does about a report of its provider. -/
  receive : Report → Receipt Item
  /-- The listeners, in the order of their registration. -/
  listeners : List ListenerScript
  /-- How deep reactions may nest. -/
  depth : Nat

/-- The state of a session. -/
structure Session (σ : Type) where
  /-- The cache. -/
  cache : σ
  /-- Whether its scheduler runs. -/
  scheduled : Bool
  /-- Its provider. -/
  provider : MemoryProvider := {}
  /-- The results that are referred to, by number. -/
  objects : Array (AuthResult String) := #[]
  /-- The numbers of named results. -/
  names : Std.TreeMap String Nat := ∅
  /-- The held entries. -/
  held : Std.TreeMap String (Entry Item) := ∅
  /-- The keys that steps have named. -/
  keys : Std.TreeSet String := ∅
  /-- What happened in this step, the last thing first. -/
  happenings : List Happening := []
  /-- The lines of the log in this step, the last one first. -/
  log : List LogEvent := []

namespace Session

/-! ## Small changes -/

/-- Records a happening. -/
def record (s : Session σ) (h : Happening) : Session σ := { s with happenings := h :: s.happenings }

/-- Remembers that a step named a key. -/
def noteKey (s : Session σ) (key : String) : Session σ := { s with keys := s.keys.insert key }

/-- Writes lines of the log. -/
def writeLog (s : Session σ) (events : List LogEvent) : Session σ :=
  { s with log := events.reverse ++ s.log }

/-- The content of an item at this instant. -/
def content (s : Session σ) : Item → Content
  | .own c => c
  | .shared object => .result (s.objects.getD object { subject := {} })

/-- An entry with the content of its value. -/
def showEntry (s : Session σ) (e : Entry Item) : Entry Content :=
  ⟨e.id, e.value.map s.content⟩

/-- Makes a new result that can be referred to. -/
def newObject (s : Session σ) (r : AuthResult String) : Nat × Session σ :=
  (s.objects.size, { s with objects := s.objects.push r })

/-- Gives a result a name. -/
def nameObject (s : Session σ) (name : String) (object : Nat) : Session σ :=
  { s with names := s.names.insert name object }

/-- A named result. -/
def object? (s : Session σ) (name : String) : Option (Nat × AuthResult String) := do
  let i ← s.names[name]?
  let r ← s.objects[i]?
  return (i, r)

/-! ## What happens inside an action -/

/-- Calls listeners. -/
def callAll (onCall : Delivery Item → Session σ → Session σ) (calls : List (Delivery Item))
    (s : Session σ) : Session σ :=
  calls.foldl (fun s d => onCall d s) s

/-- Lets one registration of the cache receive a report. -/
def receive (script : Script σ) (onCall : Delivery Item → Session σ → Session σ) (report : Report)
    (s : Session σ) : Session σ :=
  let receipt := script.receive report
  callAll onCall receipt.calls (s.writeLog receipt.log)

/-- Lets every registration of the cache receive a report. -/
def receiveAll (script : Script σ) (onCall : Delivery Item → Session σ → Session σ)
    (report : Report) (s : Session σ) : Session σ :=
  (List.range s.provider.registrations).foldl (fun s _ => receive script onCall report s) s

/-- Lets the provider begin a call. -/
def beginCall (s : Session σ) (call : ProviderCall) : Outcome × Session σ :=
  let (outcome, provider) := s.provider.begin call
  (outcome, { s with provider })

/-- What happens inside an action, given what a call of a listener does. -/
def perform (script : Script σ) (onCall : Delivery Item → Session σ → Session σ) {β : Type}
    (action : Action σ String Item β) (s : Session σ) : β × Session σ :=
  match action with
  | .access change =>
    let (answer, cache) := change s.cache
    (answer, { s with cache })
  | .log event => ((), s.writeLog [event])
  | .notify delivery => ((), onCall delivery s)
  | .openProvider =>
    let (outcome, s) := s.beginCall .opening
    match outcome.failure? with
    | some failure => (.error failure, s)
    | none => (.ok 0, s)
  | .register _ =>
    let (outcome, s) := s.beginCall .registering
    match outcome with
    | .fail failure => (.error failure, s)
    | outcome =>
      let s := { s with
        provider := { s.provider with registrations := s.provider.registrations + 1 } }
      let s :=
        match (if s.provider.replay then s.provider.removalOfAll else none) with
        | none => s
        | some report => receive script onCall report s
      match outcome.failure? with
      | some failure => (.error failure, s)
      | none => (.ok (), s)
  | .get _ key =>
    let (outcome, s) := s.beginCall .get
    match outcome.failure? with
    | some failure => (.error failure, s)
    | none => (.ok s.provider.entries[key]?, s)
  | .put _ key bytes =>
    let (outcome, s) := s.beginCall .put
    match outcome.failure? with
    | some failure => (.error failure, s)
    | none =>
      let (report, provider) := s.provider.put key bytes
      (.ok (), receiveAll script onCall report { s with provider })
  | .remove _ key =>
    let (outcome, s) := s.beginCall .remove
    match outcome.failure? with
    | some failure => (.error failure, s)
    | none =>
      match s.provider.remove key with
      | (none, provider) => (.ok false, { s with provider })
      | (some report, provider) => (.ok true, receiveAll script onCall report { s with provider })
  | .removeAll _ =>
    let (outcome, s) := s.beginCall .removeAll
    match outcome.failure? with
    | some failure => (.error failure, s)
    | none =>
      match s.provider.removeAll with
      | (none, provider) => (.ok (), { s with provider })
      | (some report, provider) => (.ok (), receiveAll script onCall report { s with provider })

/-- Runs a program of the cache. -/
def run {α : Type} (script : Script σ) (onCall : Delivery Item → Session σ → Session σ)
    (p : Program σ String Item α) (s : Session σ) : α × Session σ :=
  p.run (perform script onCall) s

/-! ## Steps -/

/-- The answer to an operation. -/
def answerOf {α : Type} (shown : α → Answer) : Except CacheFailure α → Answer
  | .ok a => shown a
  | .error failure => .failure failure

/-- The item that an input stores, which a named result may be missing for. A local cache refers to
a result, a distributed one takes it as it is. -/
def itemOf? (s : Session σ) (distributed : Bool) (input : Input) : Option Item × Session σ :=
  match input with
  | .content (.result r) =>
    if distributed then (some (.own (.result r)), s)
    else
      let (object, s) := s.newObject r
      (some (.shared object), s)
  | .content c => (some (.own c), s)
  | .named name =>
    match s.object? name with
    | none => (none, s)
    | some (object, r) =>
      (some (if distributed then .own (.result r) else .shared object), s)

/-- Stores texts with the numbers of a list under keys with the same numbers, up to the first
failure. -/
def fill (script : Script σ) (onCall : Delivery Item → Session σ → Session σ) (stem : String) :
    List Nat → Session σ → Answer × Session σ
  | [], s => (.nothing, s)
  | i :: is, s =>
    let item := Item.own (.text ("v" ++ toString i))
    match s.run script onCall (script.operations.insert (stem ++ toString i) item) with
    | (.error failure, s) => (.failure failure, s)
    | (.ok (), s) => fill script onCall stem is s

/-- Gets keys with the numbers of a list and adds the number of those that have a value to
`count`. -/
def touch (script : Script σ) (onCall : Delivery Item → Session σ → Session σ) (stem : String) :
    List Nat → Nat → Session σ → Nat × Session σ
  | [], count, s => (count, s)
  | i :: is, count, s =>
    match s.run script onCall (script.operations.get (stem ++ toString i)) with
    | (.ok (some _), s) => touch script onCall stem is (count + 1) s
    | (_, s) => touch script onCall stem is count s

/-- Looks a key up several times, up to the first failure, and returns the entries that were found,
the last one first. -/
def lookupTimes (script : Script σ) (onCall : Delivery Item → Session σ → Session σ)
    (key : String) : Nat → List (Entry Item) → Session σ →
    Except CacheFailure (List (Entry Item)) × Session σ
  | 0, found, s => (.ok found, s)
  | n + 1, found, s =>
    match s.run script onCall (script.operations.lookup key) with
    | (.error failure, s) => (.error failure, s)
    | (.ok e, s) => lookupTimes script onCall key n (e :: found) s

/-- Looks a key up several times at once. What the log says of it is not kept. -/
def race (script : Script σ) (onCall : Delivery Item → Session σ → Session σ) (key : String)
    (count : Nat) (s : Session σ) : Answer × Session σ :=
  let (found, after) := lookupTimes script onCall key count [] s
  let after := { after with log := s.log }
  match found with
  | .error failure => (.failure failure, after)
  | .ok found =>
    let ids := found.map Entry.id
    let same := ids.all fun i => ids.head? == some i
    (.racing same (found.getLast?.map after.showEntry), after)

/-- Gives the result under a key a name. A result that the cache does not share is a new one. -/
def nameFrom (script : Script σ) (onCall : Delivery Item → Session σ → Session σ)
    (name key : String) (s : Session σ) : Answer × Session σ :=
  match s.run script onCall (script.operations.get key) with
  | (.error failure, s) => (.failure failure, s)
  | (.ok (some (.shared object)), s) => (.flag true, s.nameObject name object)
  | (.ok (some (.own (.result r))), s) =>
    let (object, s) := s.newObject r
    (.flag true, s.nameObject name object)
  | (.ok _, s) => (.flag false, s)

/-- The numbers from `first` up to `last`, which is left out. -/
def numbered (first last : Nat) : List Nat := (List.range (last - first)).map (first + ·)

/-- How a cache shows itself. -/
def describe (script : Script σ) (s : Session σ) : String :=
  let metrics := (Snapshot.of (script.operations.counters s.cache) 0).describeWith "_"
  let shared := Text.openRecord "CacheShared"
    [("mode", Text.quoted (if script.operations.distributed then "distributed" else "local")),
     ("listeners", toString script.listeners.length),
     ("metrics", metrics)]
  Text.record "Cache" [("shared", shared)]

/-- The answer that looks at a named result. -/
def ofObject (s : Session σ) (name : String) (f : AuthResult String → Answer) :
    Answer × Session σ :=
  match s.object? name with
  | none => (.unknownName, s)
  | some (_, r) => (f r, s)

/-- Runs a step, given what a call of a listener does. -/
def step (script : Script σ) (onCall : Delivery Item → Session σ → Session σ) (step : Step)
    (s : Session σ) : Answer × Session σ :=
  let ops := script.operations
  match step with
  | .get key =>
    let (found, s) := (s.noteKey key).run script onCall (ops.get key)
    (answerOf (fun value => .value (value.map s.content)) found, s)
  | .lookup key name =>
    match (s.noteKey key).run script onCall (ops.lookup key) with
    | (.error failure, s) => (.failure failure, s)
    | (.ok e, s) => (.entry (s.showEntry e), { s with held := s.held.insert name e })
  | .entry name =>
    match s.held[name]? with
    | none => (.unknownName, s)
    | some e => (.entry (s.showEntry e), s)
  | .same a b =>
    match s.held[a]?, s.held[b]? with
    | some a, some b =>
      let same := a.id == b.id
      (.sameness same (if a.isPlaceholder || b.isPlaceholder then none else some same), s)
    | _, _ => (.unknownName, s)
  | .insert key input =>
    match (s.noteKey key).itemOf? ops.distributed input with
    | (none, s) => (.unknownName, s)
    | (some item, s) =>
      let (done, s) := s.run script onCall (ops.insert key item)
      (answerOf (fun _ => .nothing) done, s)
  | .remove key =>
    let (removed, s) := (s.noteKey key).run script onCall (ops.remove key)
    (answerOf .flag removed, s)
  | .clear =>
    let (done, s) := s.run script onCall ops.clear
    (answerOf (fun _ => .nothing) done, s)
  | .rotate =>
    let ((), s) := s.run script onCall ops.evictStale
    (.nothing, s)
  | .evictionRequired =>
    let (required, s) := s.run script onCall ops.evictionRequired
    (.flag required, s)
  | .size => (.count (ops.sizes s.cache).total, s)
  | .isEmpty => (.flag ((ops.sizes s.cache).total == 0), s)
  | .hasScheduler => (.flag s.scheduled, s)
  | .stopScheduler => (.nothing, { s with scheduled := false })
  | .isDistributed => (.flag ops.distributed, s)
  | .isConnected => (.flag (ops.connected s.cache), s)
  | .generation key =>
    let s := s.noteKey key
    (.generation (ops.generationOf? s.cache key), s)
  | .generationSize g =>
    (.count ((ops.sizes s.cache).get g), s)
  | .counters => (.counters (ops.counters s.cache), s)
  | .describe => (.description (s.describe script), s)
  | .fill stem first last => fill script onCall stem (numbered first last) s
  | .touch stem first last =>
    let (count, s) := touch script onCall stem (numbered first last) 0 s
    (.count count, s)
  | .generations stem first last =>
    (.generations ((numbered first last).map fun i =>
      ops.generationOf? s.cache (stem ++ toString i)), s)
  | .racingLookups key count => race script onCall key count (s.noteKey key)
  | .newResult name subject =>
    let (object, s) := s.newObject { subject }
    (.nothing, s.nameObject name object)
  | .nameResult name key => nameFrom script onCall name key (s.noteKey key)
  | .addLookupKey name key =>
    let s := s.noteKey key
    match s.object? name with
    | none => (.unknownName, s)
    | some (object, r) =>
      (.nothing, { s with objects := s.objects.setIfInBounds object (r.addLookupKey key) })
  | .lookupKeys name => s.ofObject name fun r => .keys r.lookupKeys
  | .resultSubject name => s.ofObject name fun r => .content (.subject r.subject)
  | .showResult name => s.ofObject name fun r => .content (.result r)
  | .describeResult name => s.ofObject name fun r => .description (r.describe Text.quotedList)
  | .invalidateResult name =>
    match s.object? name with
    | none => (.unknownName, s)
    | some (_, r) =>
      let (count, s) := s.run script onCall (r.invalidateIn ops)
      (answerOf .count count, s)
  | .providerSet key bytes => (.nothing, { s with provider := s.provider.set key bytes })
  | .providerExpire keys =>
    let (report, provider) := s.provider.expire keys
    (.nothing, receiveAll script onCall report { s with provider })
  | .providerReport report => (.nothing, receiveAll script onCall report s)
  | .providerPlan call outcomes =>
    (.nothing, { s with provider := s.provider.plan call outcomes })
  | .providerState => (.provider s.provider, s)

/-! ## Listeners -/

/-- The tags of the values of a batch. A local cache has no order among the values of a batch, so
they are taken in ascending order. -/
def tags (script : Script σ) (values : List Item) (s : Session σ) : List String :=
  let tags := values.map fun item => (s.content item).tag
  if script.operations.distributed then tags
  else tags.mergeSort fun a b => decide (a ≤ b)

/-- The steps by which a listener reacts to a batch. -/
def reactionSteps (script : Script σ) (d : Delivery Item) (s : Session σ) : List Step :=
  match script.listeners[d.listener]? with
  | none => []
  | some listener =>
    let tags := s.tags script d.batch.values
    (listener.reactions.filter fun r => r.reason.all (· == d.batch.reason)).flatMap fun r =>
      tags.flatMap r.steps

/-- What a call of a listener does: it is recorded and, while reactions may nest deeper, reacted
to. -/
def called (script : Script σ) : Nat → Delivery Item → Session σ → Session σ
  | 0, d, s => s.record (.called d)
  | depth + 1, d, s =>
    let s := s.record (.called d)
    (s.reactionSteps script d).foldl
      (fun s reaction =>
        let (answer, s) := s.step script (called script depth) reaction
        s.record (.reacted d.listener answer))
      s

/-! ## Reports -/

/-- Shows a happening. -/
def showHappening (script : Script σ) (s : Session σ) : Happening → Event
  | .reacted listener answer => .reacted listener answer
  | .called d =>
    let countOnly := (script.listeners[d.listener]?.map ListenerScript.countOnly).getD false
    if countOnly then .counted d.listener d.batch.reason d.batch.values.length
    else
      let contents := d.batch.values.map s.content
      .called d.listener d.batch.reason
        (if script.operations.distributed then contents else Content.sort contents)

/-- Runs a step of the scenario and shows it. -/
def report (script : Script σ) (scenarioStep : Step) (s : Session σ) : StepReport × Session σ :=
  let (answer, s) := s.step script (called script script.depth) scenarioStep
  ({ answer
     events := s.happenings.reverse.map (s.showHappening script)
     sizes := script.operations.sizes s.cache
     log := s.log.reverse },
   { s with happenings := [], log := [] })

/-- Runs the steps of a scenario, one after the other. -/
def reports (script : Script σ) : List Step → Session σ → List StepReport × Session σ
  | [], s => ([], s)
  | step :: steps, s =>
    let (shown, s) := s.report script step
    let (rest, s) := reports script steps s
    (shown :: rest, s)

/-- The generations of all keys that steps have named. -/
def namedGenerations (script : Script σ) (s : Session σ) : List (String × Option Generation) :=
  s.keys.toList.map fun key => (key, script.operations.generationOf? s.cache key)

end Session

end GenerationalCache.Scenario
