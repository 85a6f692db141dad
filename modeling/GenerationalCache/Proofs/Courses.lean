import GenerationalCache.Proofs.Opening

/-!
# The course of an operation

What an operation of a distributed cache answers is settled by the replies that it gets. It connects,
and a failure there is its answer. Once it is being served it asks for at most one thing, and that is
the one it is there for; the reply is its answer, apart from bytes that a lookup has to read first. A
value without bytes is not asked for at all.

A course is all that may happen to a program from a point on, for every reply: what it will have
exchanged when it ends, what it answers, and what it has counted on the way. Whatever it counts, it
counts after its last question, so that an operation that waits has counted nothing.
-/

namespace GenerationalCache

variable {K V : Type} {α β : Type}

namespace Call

/-- The failure with which an operation answers, if it does. -/
def failure? : (c : Call K V) → c.Answer → Option CacheFailure
  | .lookup _, .error failure | .get _, .error failure | .insert _ _, .error failure
  | .remove _, .error failure | .clear, .error failure => some failure
  | _, _ => none

/-- What a lookup has found if it answered: a value, or none. -/
def value? : (c : Call K V) → c.Answer → Option (Option V)
  | .lookup _, .ok e => some e.value
  | .get _, .ok value => some value
  | _, _ => none

theorem failure?_refusal {c : Call K V} (hc : c.NeedsProvider) (failure : CacheFailure) :
    c.failure? (c.refusal failure) = some failure := by
  cases c with
  | evictStale | evictionRequired => exact hc.elim
  | _ => rfl

theorem value?_refusal (c : Call K V) (failure : CacheFailure) :
    c.value? (c.refusal failure) = none := by
  cases c <;> rfl

theorem failure?_eq_none_of_alone {c : Call K V} (hc : ¬ c.NeedsProvider) (a : c.Answer) :
    c.failure? a = none ∧ c.value? a = none := by
  cases c with
  | evictStale | evictionRequired => exact ⟨rfl, rfl⟩
  | _ => exact absurd trivial hc

end Call

namespace Conversation

namespace Exchange

/-- The failure of whatever was asked for, if it failed. -/
def failed? : Exchange K V → Option CacheFailure
  | ⟨.openProvider, reply⟩ => failure? reply
  | ⟨.register _, reply⟩ => failure? reply
  | ⟨.get _ _, reply⟩ => failure? reply
  | ⟨.put _ _ _, reply⟩ => failure? reply
  | ⟨.remove _ _, reply⟩ => failure? reply
  | ⟨.removeAll _, reply⟩ => failure? reply
  | _ => none

/-- An open provider was asked for an entry, or to change its entries. -/
def isService : Exchange K V → Bool
  | ⟨.get _ _, _⟩ | ⟨.put _ _ _, _⟩ | ⟨.remove _ _, _⟩ | ⟨.removeAll _, _⟩ => true
  | _ => false

/-- Bytes were put, and the provider took them. -/
def isStored : Exchange K V → Bool
  | ⟨.put _ _ _, .ok ()⟩ => true
  | _ => false

/-- A key was removed that was there. -/
def isRemoved : Exchange K V → Bool
  | ⟨.remove _ _, .ok true⟩ => true
  | _ => false

end Exchange

/-! ## What an operation makes of its replies -/

/-- What it takes to connect, and what comes of it. -/
inductive Connects : List (Exchange K V) → Except CacheFailure Handle → Prop where
  /-- There is an open provider. -/
  | found (h : Handle) : Connects [] (.ok h)
  /-- The provider opens, and agrees to report. -/
  | agreed (h : Handle) : Connects [⟨.openProvider, .ok h⟩, ⟨.register h, .ok ()⟩] (.ok h)
  /-- The provider does not open. -/
  | closed (failure : CacheFailure) :
      Connects [⟨.openProvider, .error failure⟩] (.error failure)
  /-- The provider opens, and will not report. -/
  | refused (h : Handle) (failure : CacheFailure) :
      Connects [⟨.openProvider, .ok h⟩, ⟨.register h, .error failure⟩] (.error failure)

/-- What an operation asks of the provider that it uses, and what it makes of the reply. -/
inductive Served (serializer : Serializer V) (h : Handle) :
    (c : Call K V) → List (Exchange K V) → c.Answer → Prop where
  /-- A lookup reads the bytes, if there are any; without a value it makes a placeholder. -/
  | lookup (k : K) (reply : Except CacheFailure (Option Bytes)) (id : Nat) :
      Served serializer h (.lookup k) [⟨.get h k, reply⟩]
        (reply.map fun bytes => ⟨id, (serializer.decode bytes).1⟩)
  | get (k : K) (reply : Except CacheFailure (Option Bytes)) :
      Served serializer h (.get k) [⟨.get h k, reply⟩]
        (reply.map fun bytes => (serializer.decode bytes).1)
  /-- A value with bytes is put. -/
  | insert (k : K) {x : V} {bytes : Bytes} (accepts : serializer.serialize x = .ok bytes)
      (reply : Except CacheFailure Unit) :
      Served serializer h (.insert k x) [⟨.put h k bytes, reply⟩] reply
  /-- A value without bytes is dropped. -/
  | drop (k : K) {x : V} {failure : CacheFailure}
      (rejects : serializer.serialize x = .error failure) :
      Served serializer h (.insert k x) [] (.ok ())
  | remove (k : K) (reply : Except CacheFailure Bool) :
      Served serializer h (.remove k) [⟨.remove h k, reply⟩] reply
  | clear (reply : Except CacheFailure Unit) :
      Served serializer h .clear [⟨.removeAll h, reply⟩] reply

/-- What an operation has exchanged when it answers, and what it answers. -/
inductive Settled (serializer : Serializer V) (c : Call K V) :
    List (Exchange K V) → c.Answer → Prop where
  /-- It needs no provider. -/
  | alone (a : c.Answer) (alone : ¬ c.NeedsProvider) : Settled serializer c [] a
  /-- It cannot connect. -/
  | refused {trail : List (Exchange K V)} {failure : CacheFailure} (needs : c.NeedsProvider)
      (connects : Connects trail (.error failure)) :
      Settled serializer c trail (c.refusal failure)
  /-- It connects, and is served. -/
  | served {before own : List (Exchange K V)} {h : Handle} {a : c.Answer} (needs : c.NeedsProvider)
      (connects : Connects before (.ok h)) (serves : Served serializer h c own a) :
      Settled serializer c (before ++ own) a

/-- What an operation has counted when it has exchanged this and found that. -/
def counted (trail : List (Exchange K V)) (value : Option (Option V)) (c : Counters) : Counters :=
  let looked := value.elim c fun v => c.lookedUp v.isSome
  let stored := if trail.any Exchange.isStored then looked.stored else looked
  if trail.any Exchange.isRemoved then stored.invalidated 1 else stored

namespace Connects

variable {trail : List (Exchange K V)} {result : Except CacheFailure Handle}

/-- Connecting is no service, and counts for nothing. -/
theorem not_service (h : Connects trail result) {e : Exchange K V} (he : e ∈ trail) :
    e.isService = false ∧ e.isStored = false ∧ e.isRemoved = false := by
  cases h with
  | found => cases he
  | closed =>
      obtain rfl := List.mem_singleton.mp he
      exact ⟨rfl, rfl, rfl⟩
  | agreed | refused =>
      rcases List.mem_cons.mp he with rfl | he
      · exact ⟨rfl, rfl, rfl⟩
      · obtain rfl := List.mem_singleton.mp he
        exact ⟨rfl, rfl, rfl⟩

theorem filter_isService (h : Connects trail result) : trail.filter Exchange.isService = [] :=
  List.filter_eq_nil_iff.mpr fun _ he => by simp [(h.not_service he).1]

theorem counted_append (h : Connects trail result) (own : List (Exchange K V))
    (value : Option (Option V)) : counted (trail ++ own) value = counted own value := by
  have hstored : trail.any Exchange.isStored = false :=
    List.any_eq_false.mpr fun e he => by simp [(h.not_service he).2.1]
  have hremoved : trail.any Exchange.isRemoved = false :=
    List.any_eq_false.mpr fun e he => by simp [(h.not_service he).2.2]
  funext counters
  simp only [counted, List.any_append, hstored, hremoved, Bool.false_or]

/-- Connecting fails exactly as one of the two steps to it does. -/
theorem error_iff (h : Connects trail result) (failure : CacheFailure) :
    result = .error failure ↔ ∃ e ∈ trail, e.failed? = some failure := by
  cases h with
  | found | agreed => simp [Exchange.failed?, Exchange.failure?]
  | closed | refused => simp [Exchange.failed?, Exchange.failure?]

/-- And such a failure is a refusal to connect. -/
theorem refused_iff (h : Connects trail result) (failure : CacheFailure) :
    result = .error failure ↔ ∃ e ∈ trail, e.refused? = some failure := by
  cases h with
  | found | agreed => simp [Exchange.refused?, Exchange.failure?]
  | closed | refused => simp [Exchange.refused?, Exchange.failure?]

end Connects

namespace Served

variable {serializer : Serializer V} {h : Handle} {c : Call K V} {own : List (Exchange K V)}
  {a : c.Answer}

/-- A served operation asks for at most one thing, and for nothing but a service. -/
theorem isService (hs : Served serializer h c own a) :
    own.length ≤ 1 ∧ ∀ e ∈ own, e.isService = true := by
  cases hs with
  | drop => exact ⟨Nat.zero_le 1, List.forall_mem_nil _⟩
  | _ => exact ⟨Nat.le_refl 1, List.forall_mem_singleton.mpr rfl⟩

/-- What it asked for is what is left when connecting is taken away. -/
theorem filter_isService (hs : Served serializer h c own a) {before : List (Exchange K V)}
    {result : Except CacheFailure Handle} (connects : Connects before result) :
    (before ++ own).filter Exchange.isService = own := by
  rw [List.filter_append, connects.filter_isService, List.nil_append,
    List.filter_eq_self.mpr hs.isService.2]

/-- It fails exactly as what it asked for does. -/
theorem failure_iff (hs : Served serializer h c own a) (failure : CacheFailure) :
    c.failure? a = some failure ↔ ∃ e ∈ own, e.failed? = some failure := by
  cases hs with
  | lookup k reply id | get k reply | insert k accepts reply | remove k reply | clear reply =>
      cases reply <;>
        simp [Call.failure?, Exchange.failed?, Exchange.failure?, Except.map]
  | drop => simp [Call.failure?]

/-- Where nothing was stored and nothing removed, nothing but a lookup counts. -/
theorem counted_of_failed (hs : Served serializer h c own a) {failure : CacheFailure}
    (hf : c.failure? a = some failure) :
    c.value? a = none ∧ ∀ e ∈ own, e.isStored = false ∧ e.isRemoved = false := by
  cases hs with
  | lookup k reply id | get k reply | insert k accepts reply | remove k reply | clear reply =>
      cases reply with
      | error failure => exact ⟨rfl, List.forall_mem_singleton.mpr ⟨rfl, rfl⟩⟩
      | ok => cases hf
  | drop => cases hf

end Served

namespace Settled

variable {serializer : Serializer V} {c : Call K V} {trail : List (Exchange K V)} {a : c.Answer}

/-- **An operation fails exactly as something that it asked for does.** -/
theorem failure_iff (hs : Settled serializer c trail a) (failure : CacheFailure) :
    c.failure? a = some failure ↔ ∃ e ∈ trail, e.failed? = some failure := by
  cases hs with
  | alone _ halone => simp [(Call.failure?_eq_none_of_alone halone a).1]
  | @refused _ f needs connects =>
      rw [Call.failure?_refusal needs, ← connects.error_iff]
      simp
  | @served before own h _ needs connects serves =>
      -- connecting has succeeded, so whatever failed was the service
      have hnone : ¬ ∃ e ∈ before, e.failed? = some failure := by
        rw [← connects.error_iff]
        simp
      rw [serves.failure_iff]
      simp only [List.mem_append, or_and_right, exists_or]
      exact (or_iff_right hnone).symm

/-- An operation asks for at most one service. -/
theorem length_services_le (hs : Settled serializer c trail a) :
    (trail.filter Exchange.isService).length ≤ 1 := by
  cases hs with
  | alone => exact Nat.zero_le 1
  | refused needs connects =>
      rw [connects.filter_isService]
      exact Nat.zero_le 1
  | served needs connects serves =>
      rw [serves.filter_isService connects]
      exact serves.isService.1

/-- An operation that fails has counted nothing. -/
theorem counted_of_failed (hs : Settled serializer c trail a) {failure : CacheFailure}
    (hf : c.failure? a = some failure) : counted trail (c.value? a) = id := by
  have hnothing : c.value? a = none ∧ ∀ e ∈ trail, e.isStored = false ∧ e.isRemoved = false := by
    cases hs with
    | alone => exact ⟨(Call.failure?_eq_none_of_alone ‹_› a).2, List.forall_mem_nil _⟩
    | refused needs connects =>
        exact ⟨c.value?_refusal _, fun e he => (connects.not_service he).2⟩
    | served needs connects serves =>
        obtain ⟨hvalue, hown⟩ := serves.counted_of_failed hf
        exact ⟨hvalue, List.forall_mem_append.mpr
          ⟨fun e he => (connects.not_service he).2, hown⟩⟩
  obtain ⟨hvalue, hall⟩ := hnothing
  have hstored : trail.any Exchange.isStored = false :=
    List.any_eq_false.mpr fun e he => by simp [(hall e he).1]
  have hremoved : trail.any Exchange.isRemoved = false :=
    List.any_eq_false.mpr fun e he => by simp [(hall e he).2]
  funext counters
  simp [counted, hvalue, hstored, hremoved]

end Settled

/-! ## Courses -/

/-- Whatever the replies are, a program that has exchanged this and counted that comes to one of
these ends. It waits only as long as it has counted nothing and asked for no service. -/
inductive Course (ends : List (Exchange K V) → (Counters → Counters) → α → Prop) :
    List (Exchange K V) → (Counters → Counters) → Program Connection K V α → Prop where
  | done {trail : List (Exchange K V)} {count : Counters → Counters} {a : α}
      (here : ends trail count a) : Course ends trail count (.done a)
  | access {trail : List (Exchange K V)} {count : Counters → Counters} {γ : Type}
      {change : Connection → γ × Connection} {next : γ → Program Connection K V α}
      (more : Counters → Counters) (counts : ∀ s, (change s).2.counters = more s.counters)
      (rest : ∀ s, Course ends trail (more ∘ count) (next (change s).1)) :
      Course ends trail count (.step (.access change) next)
  | log {trail : List (Exchange K V)} {count : Counters → Counters} {e : LogEvent}
      {next : Unit → Program Connection K V α} (rest : Course ends trail count (next ())) :
      Course ends trail count (.step (.log e) next)
  | ask {trail : List (Exchange K V)} {γ : Type} {action : Action Connection K V γ}
      {next : γ → Program Connection K V α} (outgoing : action.isOutgoing)
      (unserved : trail.filter Exchange.isService = [])
      (rest : ∀ r, Course ends (trail ++ [⟨action, r⟩]) id (next r)) :
      Course ends trail id (.step action next)

namespace Course

variable {ends : List (Exchange K V) → (Counters → Counters) → α → Prop}
  {ends' : List (Exchange K V) → (Counters → Counters) → β → Prop}
  {trail : List (Exchange K V)} {count : Counters → Counters}

theorem bind {p : Program Connection K V α} {f : α → Program Connection K V β}
    (hp : Course ends trail count p)
    (hf : ∀ trail count a, ends trail count a → Course ends' trail count (f a)) :
    Course ends' trail count (p.bind f) := by
  induction hp with
  | done here => exact hf _ _ _ here
  | access more counts _ ih => exact .access more counts ih
  | log _ ih => exact .log ih
  | ask outgoing unserved _ ih => exact .ask outgoing unserved ih

theorem logAll (es : List LogEvent) {f : Unit → Program Connection K V α}
    (h : Course ends trail count (f ())) :
    Course ends trail count ((Program.logAll es).bind f) := by
  induction es with
  | nil => exact h
  | cons e es ih => exact .log ih

end Course

/-- Connecting counts nothing. -/
theorem course_connect (listeners : Nat) :
    Course (fun trail count r => Connects trail r ∧ count = id) [] id
      (Connection.connect listeners : Program Connection K V _) := by
  refine .access id (fun _ => rfl) fun s => ?_
  cases hs : s.handle with
  | some h => exact .done ⟨.found h, rfl⟩
  | none =>
      refine .ask rfl rfl fun r => ?_
      cases r with
      | error failure => exact .logAll _ (.done ⟨.closed failure, rfl⟩)
      | ok h =>
          refine .access id (fun _ => rfl) fun _ => .ask rfl rfl fun r => ?_
          cases r with
          | error failure =>
              -- the provider is given up again before the failure is passed on
              exact .logAll _ (.access id (fun _ => rfl) fun _ => .done ⟨.refused h failure, rfl⟩)
          | ok u => exact .logAll _ (.done ⟨.agreed h, rfl⟩)

/-- How an operation may end. -/
def Ends (serializer : Serializer V) (c : Call K V) (trail : List (Exchange K V))
    (count : Counters → Counters) (a : c.Answer) : Prop :=
  Settled serializer c trail a ∧ count = counted trail (c.value? a)

theorem Ends.refused {serializer : Serializer V} {c : Call K V} {trail : List (Exchange K V)}
    {failure : CacheFailure} (needs : c.NeedsProvider)
    (connects : Connects trail (.error failure)) :
    Ends serializer c trail id (c.refusal failure) := by
  have hs : Settled serializer c trail (c.refusal failure) := .refused needs connects
  exact ⟨hs, (hs.counted_of_failed (c.failure?_refusal needs failure)).symm⟩

theorem Ends.served {serializer : Serializer V} {c : Call K V} {before own : List (Exchange K V)}
    {h : Handle} {a : c.Answer} (needs : c.NeedsProvider) (connects : Connects before (.ok h))
    (serves : Served serializer h c own a) :
    Ends serializer c (before ++ own) (counted own (c.value? a)) a :=
  ⟨.served needs connects serves, (connects.counted_append own _).symm⟩

/-- An operation that passes failures on and otherwise goes on to be served. -/
theorem Ends.course {serializer : Serializer V} {c : Call K V} (needs : c.NeedsProvider)
    (listeners : Nat) {serve : Except CacheFailure Handle → Program Connection K V c.Answer}
    (fails : ∀ failure, serve (.error failure) = .done (c.refusal failure))
    (serves : ∀ before h, Connects before (.ok h) →
      Course (Ends serializer c) before id (serve (.ok h))) :
    Course (Ends serializer c) [] id ((Connection.connect listeners).bind serve) := by
  refine (course_connect listeners).bind fun before count r ⟨connects, hcount⟩ => ?_
  subst hcount
  cases r with
  | error failure =>
      rw [fails]
      exact .done (.refused needs connects)
  | ok h => exact serves before h connects

theorem course_lookup (serializer : Serializer V) (listeners : Nat) (k : K) :
    Course (Ends serializer (.lookup k)) [] id
      (Connection.lookupOp serializer listeners k : Program Connection K V _) := by
  refine Ends.course (c := .lookup k) trivial listeners (fun _ => rfl) fun before h connects => ?_
  refine .ask rfl connects.filter_isService fun r => ?_
  cases r with
  | error failure => exact .done (Ends.served trivial connects (.lookup k (.error failure) 0))
  | ok bytes =>
      refine .logAll _ (.access (fun c => c.lookedUp (serializer.decode bytes).1.isSome)
        (fun _ => rfl) fun s => .done ?_)
      exact Ends.served trivial connects (.lookup k (.ok bytes) s.nextId)

/-- A lookup that only tells the value. -/
theorem Ends.get {serializer : Serializer V} {k : K} {trail : List (Exchange K V)}
    {count : Counters → Counters} {a : (Call.lookup k : Call K V).Answer}
    (h : Ends serializer (.lookup k) trail count a) :
    Ends serializer (.get k) trail count (Except.map Entry.value a) := by
  obtain ⟨hsettled, rfl⟩ := h
  refine ⟨?_, by cases a <;> rfl⟩
  cases hsettled with
  | alone _ alone => exact absurd trivial alone
  | refused _ connects => exact .refused (c := .get k) trivial connects
  | served _ connects serves =>
      cases serves with
      | lookup k reply id =>
          have hserved : Settled serializer (.get k) _ _ :=
            .served trivial connects (.get k reply)
          cases reply <;> exact hserved

/-- **Every operation connects and is served, whatever the replies are.** -/
theorem course_program (serializer : Serializer V) (listeners : Nat) (c : Call K V) :
    Course (Ends serializer c) [] id ((Connection.operations serializer listeners).program c) := by
  cases c with
  | lookup k => exact course_lookup serializer listeners k
  -- a `get` is a lookup of which only the value is told
  | get k => exact (course_lookup serializer listeners k).bind fun _ _ _ h => .done h.get
  | insert k x =>
      refine Ends.course (c := .insert k x) trivial listeners (fun _ => rfl)
        fun before h connects => .logAll _ ?_
      cases hx : serializer.serialize x with
      | error failure =>
          refine .logAll [.writeDropped] (.done ?_)
          have hends := Ends.served (c := .insert k x) trivial connects (.drop k hx)
          rwa [List.append_nil] at hends
      | ok bytes =>
          refine .ask rfl connects.filter_isService fun r => ?_
          have hends := Ends.served (c := .insert k x) trivial connects (.insert k hx r)
          cases r with
          | error failure => exact .done hends
          | ok u => exact .access Counters.stored (fun _ => rfl) fun _ => .done hends
  | remove k =>
      refine Ends.course (c := .remove k) trivial listeners (fun _ => rfl)
        fun before h connects => ?_
      refine .ask rfl connects.filter_isService fun r => ?_
      have hends : Ends serializer (.remove k) (before ++ _) _ _ :=
        .served trivial connects (.remove k r)
      match r with
      | .error failure | .ok false => exact .done hends
      | .ok true => exact .access (·.invalidated 1) (fun _ => rfl) fun _ => .done hends
  | clear =>
      refine Ends.course (c := .clear) trivial listeners (fun _ => rfl) fun before h connects => ?_
      refine .ask rfl connects.filter_isService fun r => .done ?_
      exact Ends.served (c := .clear) trivial connects (.clear r)
  | evictStale | evictionRequired => exact .done ⟨.alone _ id, rfl⟩

end Conversation

end GenerationalCache
