import GenerationalCache.Proofs.Hearing
import GenerationalCache.Proofs.SessionSteps

/-!
# Listeners that only listen

Two caches are compared that differ in nothing but in how many listeners they have, none included.
The listeners listen and do nothing else. Whatever is done with the two caches, and whatever goes on
in the world outside, as long as it is the same for both: the two answer in the same way, count in
the same way and keep the same entries, they ask the same of the world outside, and their listeners
are told the same, each of them in the same order.

The world outside is a provider and its source. Nothing is assumed of it but that it is not aware of
the listeners: what it replies and what it reports may depend on everything that it has been asked
so far, and on what has happened to it in the meantime.

A cache without listeners does take other ways. It does not ask for the value that it removes, and
it does not read what the provider reports. So it has to be seen that these ways lead to the same
place. The two caches run programs that are the same but for lines of the log and for the number of
calls by which a batch is handed on, and one action after the other keeps them side by side.
-/

namespace GenerationalCache

variable {σ K V α β : Type}

/-! ## The world outside -/

/-- Changes that a provider reports as one batch. -/
structure Notice (K : Type) where
  /-- What has happened to the entries. -/
  kind : EventKind
  /-- The entries. -/
  changes : List (EntryEvent K)

/-- What a question leads to in the world outside: the reply, what is reported before the reply
comes, and how the world is then. -/
structure Reaction (K State α : Type) where
  /-- The reply. -/
  reply : Except CacheFailure α
  /-- What is reported. -/
  notices : List (Notice K) := []
  /-- The world afterwards. -/
  after : State

/-- A provider and its source. -/
structure Outside (K : Type) : Type 1 where
  /-- What they know. -/
  State : Type
  /-- What may happen to them without being asked for. -/
  Incident : Type
  /-- The source is asked to open the provider. -/
  openProvider : State → Reaction K State Handle
  /-- The provider is asked to report. -/
  register : Handle → State → Reaction K State Unit
  /-- It is asked for the bytes under a key. -/
  get : Handle → K → State → Reaction K State (Option Bytes)
  /-- It is to keep bytes under a key. -/
  put : Handle → K → Bytes → State → Reaction K State Unit
  /-- It is to remove a key, and says whether it had it. -/
  remove : Handle → K → State → Reaction K State Bool
  /-- It is to remove all keys. -/
  removeAll : Handle → State → Reaction K State Unit
  /-- What an incident makes them report, and how they are then. -/
  happen : Incident → State → List (Notice K) × State

/-- A kind of cache: its operations, and the calls that it makes for a report. -/
structure Setting (σ K V : Type) : Type 1 where
  /-- The operations. -/
  operations : Operations σ K V
  /-- The calls for a report. -/
  receive : Notice K → List (Delivery V)

namespace Setting

/-- A cache that keeps its own entries. Nobody reports anything to it. -/
def near [Ord K] (listeners : Nat) : Setting (LocalCache K V) K V where
  operations := LocalCache.operations listeners
  receive _ := []

/-- A cache that leaves its entries to a provider. -/
def far (serializer : Serializer V) (listeners : Nat) : Setting Connection K V where
  operations := Connection.operations serializer listeners
  receive n := (Receipt.ofEvents serializer listeners n.kind n.changes).calls

end Setting

/-- What may happen next. -/
inductive Move (o : Outside K) (V : Type) where
  /-- An operation is called. -/
  | call (c : Call K V)
  /-- An authentication result is invalidated. -/
  | invalidate (r : AuthResult K)
  /-- Something happens in the world outside. -/
  | incident (i : o.Incident)

/-- What comes back. -/
def Move.Answer {o : Outside K} : Move o V → Type
  | call c => c.Answer
  | invalidate _ => Except CacheFailure Nat
  | incident _ => Unit

/-- A cache, the world outside, and what has come of them so far. -/
structure Scene (o : Outside K) (σ V : Type) where
  /-- The cache. -/
  cache : σ
  /-- The world outside. -/
  outside : o.State
  /-- The answers, in order. -/
  answered : List ((m : Move o V) × m.Answer) := []
  /-- The calls of listeners, in order. -/
  told : List (Delivery V) := []

namespace Scene

variable {o : Outside K}

/-- The world outside reacts, and the cache makes the calls for what is reported. -/
def settle (setting : Setting σ K V) (r : Reaction K o.State α) (w : Scene o σ V) :
    Except CacheFailure α × Scene o σ V :=
  (r.reply, { w with
    outside := r.after
    told := w.told ++ r.notices.flatMap setting.receive })

/-- What an action of the cache does. -/
def act (setting : Setting σ K V) {β : Type} : Action σ K V β → Scene o σ V → β × Scene o σ V
  | .access change, w => ((change w.cache).1, { w with cache := (change w.cache).2 })
  | .log _, w => ((), w)
  | .notify d, w => ((), { w with told := w.told ++ [d] })
  | .openProvider, w => settle setting (o.openProvider w.outside) w
  | .register h, w => settle setting (o.register h w.outside) w
  | .get h k, w => settle setting (o.get h k w.outside) w
  | .put h k bytes, w => settle setting (o.put h k bytes w.outside) w
  | .remove h k, w => settle setting (o.remove h k w.outside) w
  | .removeAll h, w => settle setting (o.removeAll h w.outside) w

/-- One move, and what comes back. -/
def perform (setting : Setting σ K V) :
    (m : Move o V) → Scene o σ V → m.Answer × Scene o σ V
  | .call c, w => (setting.operations.program c).run (act setting) w
  | .invalidate r, w => (r.invalidateIn setting.operations).run (act setting) w
  | .incident i, w =>
    let (notices, outside) := o.happen i w.outside
    ((), { w with outside, told := w.told ++ notices.flatMap setting.receive })

/-- The scene after a move. -/
def move (setting : Setting σ K V) (w : Scene o σ V) (m : Move o V) : Scene o σ V :=
  let (answer, after) := perform setting m w
  { after with answered := after.answered ++ [⟨m, answer⟩] }

theorem answered_move (setting : Setting σ K V) (w : Scene o σ V) (m : Move o V) :
    (w.move setting m).answered =
      (perform setting m w).2.answered ++ [⟨m, (perform setting m w).1⟩] := rfl

/-- The scene after some moves. -/
def run (setting : Setting σ K V) (moves : List (Move o V)) (w : Scene o σ V) : Scene o σ V :=
  moves.foldl (move setting) w

end Scene

/-! ## The same for every listener -/

/-- Two sequences of calls, of one number of listeners and of another, by which every listener is
told the same. -/
def ToldAlike (n m : Nat) (ds ds' : List (Delivery V)) : Prop :=
  ∃ batches, (∀ l < n, ds.filterMap (Delivery.heardBy? l) = batches) ∧
    ∀ l < m, ds'.filterMap (Delivery.heardBy? l) = batches

namespace ToldAlike

variable {n m : Nat} {ds ds' es es' : List (Delivery V)}

theorem nil : ToldAlike n m ([] : List (Delivery V)) [] :=
  ⟨[], fun _ _ => rfl, fun _ _ => rfl⟩

theorem append (h : ToldAlike n m ds ds') (h' : ToldAlike n m es es') :
    ToldAlike n m (ds ++ es) (ds' ++ es') := by
  obtain ⟨batches, hn, hm⟩ := h
  obtain ⟨batches', hn', hm'⟩ := h'
  refine ⟨batches ++ batches', fun l hl => ?_, fun l hl => ?_⟩
  · rw [List.filterMap_append, hn l hl, hn' l hl]
  · rw [List.filterMap_append, hm l hl, hm' l hl]

theorem flatMap {γ : Type} {f g : γ → List (Delivery V)} (h : ∀ x, ToldAlike n m (f x) (g x))
    (xs : List γ) : ToldAlike n m (xs.flatMap f) (xs.flatMap g) := by
  induction xs with
  | nil => exact nil
  | cons x xs ih =>
      rw [List.flatMap_cons, List.flatMap_cons]
      exact (h x).append ih

/-- Batches are handed to every listener. -/
theorem of_deliveries (batches : List (Batch V)) :
    ToldAlike n m (deliveries n batches) (deliveries m batches) := by
  refine ⟨batches, fun l hl => ?_, fun l hl => ?_⟩
  · rw [filterMap_heardBy_deliveries, if_pos hl]
  · rw [filterMap_heardBy_deliveries, if_pos hl]

/-- So are the values of a report, whether or not they are read when nobody listens. -/
theorem of_receipts (serializer : Serializer V) (kind : EventKind) (changes : List (EntryEvent K)) :
    ToldAlike n m (Receipt.ofEvents serializer n kind changes).calls
      (Receipt.ofEvents serializer m kind changes).calls := by
  refine ⟨(Conversation.Event.reported kind changes).batches serializer,
    fun l hl => ?_, fun l hl => ?_⟩
  · rw [Conversation.filterMap_heardBy_calls, if_pos hl]
  · rw [Conversation.filterMap_heardBy_calls, if_pos hl]

end ToldAlike

/-! ## The same program for another audience -/

/-- The action calls a listener. -/
def Action.isCall : Action σ K V β → Bool
  | notify _ => true
  | _ => false

namespace Program

theorem bind_done (p : Program σ K V α) : p.bind .done = p := by
  induction p with
  | done a => rfl
  | step action next ih =>
      rw [bind]
      congr 1
      funext b
      exact ih b

/-- Two programs, one with `n` listeners to tell and one with `m`, that differ in nothing but what
they write to the log and whom they tell. -/
inductive Counterparts (n m : Nat) : Program σ K V α → Program σ K V α → Prop where
  | done (a : α) : Counterparts n m (.done a) (.done a)
  /-- Both do the same and go on from the same answer. -/
  | step {γ : Type} {action : Action σ K V γ} {next next' : γ → Program σ K V α}
      (silent : action.isCall = false) (rest : ∀ b, Counterparts n m (next b) (next' b)) :
      Counterparts n m (.step action next) (.step action next')
  /-- Each writes a line of its own. -/
  | log {e e' : LogEvent} {next next' : Unit → Program σ K V α}
      (rest : Counterparts n m (next ()) (next' ())) :
      Counterparts n m (.step (.log e) next) (.step (.log e') next')
  /-- Each tells its listeners of the same batches. -/
  | tell (batches : List (Batch V)) {next next' : Unit → Program σ K V α}
      (rest : Counterparts n m (next ()) (next' ())) :
      Counterparts n m ((deliver (deliveries n batches)).bind next)
        ((deliver (deliveries m batches)).bind next')

namespace Counterparts

variable {n m : Nat} {p p' : Program σ K V α}

theorem bind (h : Counterparts n m p p') {f f' : α → Program σ K V β}
    (hf : ∀ a, Counterparts n m (f a) (f' a)) : Counterparts n m (p.bind f) (p'.bind f') := by
  induction h with
  | done a => exact hf a
  | step silent _ ih => exact .step silent ih
  | log _ ih => exact .log ih
  | tell batches _ ih =>
      rw [bind_assoc, bind_assoc]
      exact .tell batches ih

theorem logAll (es : List LogEvent) :
    Counterparts n m (logAll es : Program σ K V Unit) (Program.logAll es) := by
  induction es with
  | nil => exact .done ()
  | cons e es ih => exact .log ih

theorem deliver (batches : List (Batch V)) :
    Counterparts n m (deliver (deliveries n batches) : Program σ K V Unit)
      (deliver (deliveries m batches)) := by
  have htell : Counterparts n m
      ((Program.deliver (deliveries n batches) : Program σ K V Unit).bind .done)
      ((Program.deliver (deliveries m batches)).bind .done) := .tell batches (.done ())
  rwa [bind_done, bind_done] at htell

/-- A program that only uses the provider has nobody to tell. -/
theorem of_serves {h : Handle} {p : Program Connection K V α} (hp : p.Serves h) :
    Counterparts n m p p := by
  induction hp with
  | done a => exact .done a
  | access _ _ ih => exact .step rfl ih
  | log _ ih => exact .log ih
  | @request γ action next uses _ ih =>
      refine .step ?_ ih
      cases action with
      | notify => exact uses.elim
      | _ => rfl

end Counterparts

end Program

open Program

/-- **The operations of a local cache differ in whom they tell, and in nothing else.** -/
theorem LocalCache.counterparts [Ord K] (n m : Nat) (c : Call K V) :
    Counterparts n m ((LocalCache.operations n).program c)
      ((LocalCache.operations m).program c) := by
  cases c with
  | lookup k | get k => exact .step rfl fun _ => .done _
  | insert k x =>
      refine .step rfl fun insertion => ?_
      exact ((Counterparts.logAll _).bind fun _ => .deliver insertion.batches).bind fun _ => .done _
  | remove k =>
      -- whether or not the value is asked for, the calls are those that it would lead to
      have hreport : ∀ removed : Option (Entry V), Counterparts n m
          (deliver (deliveries n (removalBatches n removed)) : Program (LocalCache K V) K V Unit)
          (deliver (deliveries m (removalBatches m removed))) := by
        intro removed
        rw [deliveries_removalBatches, deliveries_removalBatches]
        exact .deliver _
      refine .step rfl fun removed => ?_
      exact ((hreport removed).bind fun _ => .done _).bind fun _ => .done _
  | clear => exact .step rfl fun drained => (Counterparts.deliver _).bind fun _ => .done _
  | evictStale =>
      refine .step rfl fun rotation => ?_
      exact (Counterparts.logAll _).bind fun _ => .deliver (rotation.batches .expired)
  | evictionRequired => exact .step rfl fun _ => (Counterparts.logAll _).bind fun _ => .done _

theorem Connection.counterparts_connect (n m : Nat) :
    Counterparts n m (connect n : Program Connection K V _) (connect m) := by
  refine .step rfl fun handle => ?_
  cases handle with
  | some h => exact .done _
  | none =>
      refine .step rfl fun opened => ?_
      cases opened with
      | error failure => exact .log (.done _)
      | ok h =>
          refine .step rfl fun _ => .step rfl fun registered => ?_
          cases registered with
          | error failure => exact .log (.step rfl fun _ => .done _)
          | ok _ => exact .log (.done _)

/-- **So do the operations of a distributed cache.** They tell nobody themselves. -/
theorem Connection.counterparts (serializer : Serializer V) (n m : Nat) (c : Call K V) :
    Counterparts n m ((Connection.operations serializer n).program c)
      ((Connection.operations serializer m).program c) := by
  by_cases hc : c.NeedsProvider
  · obtain ⟨serve, heq, hfails, hserves⟩ := program_eq serializer hc
    rw [heq, heq]
    refine (counterparts_connect n m).bind fun r => ?_
    cases r with
    | error failure =>
        rw [hfails]
        exact .done _
    | ok h => exact .of_serves (hserves h)
  · cases c with
    | evictStale | evictionRequired => exact .done _
    | _ => exact absurd trivial hc

/-! ## Two settings side by side -/

/-- Two settings that differ in nothing but how many listeners there are, `n` or `m`. -/
structure Setting.Counterparts (n m : Nat) (setting setting' : Setting σ K V) : Prop where
  /-- The operations differ in whom they tell. -/
  program : ∀ c, Program.Counterparts n m (setting.operations.program c)
    (setting'.operations.program c)
  /-- And the calls for a report tell every listener the same. -/
  receive : ∀ notice, ToldAlike n m (setting.receive notice) (setting'.receive notice)

theorem Setting.counterparts_near [Ord K] (n m : Nat) :
    Setting.Counterparts n m (.near n : Setting (LocalCache K V) K V) (.near m) where
  program := LocalCache.counterparts n m
  receive _ := .nil

theorem Setting.counterparts_far (serializer : Serializer V) (n m : Nat) :
    Setting.Counterparts n m (.far serializer n : Setting Connection K V) (.far serializer m) where
  program := Connection.counterparts serializer n m
  receive _ := .of_receipts ..

/-- Keys are removed one by one in the same way. -/
theorem Setting.Counterparts.removeCounting {n m : Nat} {setting setting' : Setting σ K V}
    (h : Setting.Counterparts n m setting setting') (ks : List K) (count : Nat) :
    Program.Counterparts n m (setting.operations.removeCounting ks count)
      (setting'.operations.removeCounting ks count) := by
  induction ks generalizing count with
  | nil => exact .done _
  | cons k ks ih =>
      refine (h.program (.remove k)).bind fun removed => ?_
      cases removed with
      | error failure => exact .done _
      | ok present => exact ih _

namespace Scene

variable {o : Outside K} {n m : Nat} {setting setting' : Setting σ K V} {w w' : Scene o σ V}

/-- Two scenes that look the same to all but those who count the listeners, of whom there are `n` in
the one and `m` in the other. -/
structure Alike (n m : Nat) (w w' : Scene o σ V) : Prop where
  /-- The caches are the same: the entries, or the handle of the provider, and the counters. -/
  cache : w.cache = w'.cache
  /-- The worlds outside are the same, with whatever the provider has in store. -/
  outside : w.outside = w'.outside
  /-- All answers have been the same. -/
  answered : w.answered = w'.answered
  /-- All listeners have been told the same. -/
  told : ToldAlike n m w.told w'.told

/-- Telling the listeners keeps scenes alike. -/
theorem Alike.tell (hw : Alike n m w w') {ds ds' : List (Delivery V)} (h : ToldAlike n m ds ds') :
    Alike n m { w with told := w.told ++ ds } { w' with told := w'.told ++ ds' } :=
  ⟨hw.cache, hw.outside, hw.answered, hw.told.append h⟩

/-- **One action keeps scenes alike**, unless it calls a listener. -/
theorem Alike.act (hs : Setting.Counterparts n m setting setting') (hw : Alike n m w w')
    {action : Action σ K V β} (silent : action.isCall = false) :
    (act setting action w).1 = (act setting' action w').1 ∧
      Alike n m (act setting action w).2 (act setting' action w').2 := by
  obtain ⟨cache, outside, answered, told⟩ := w
  obtain ⟨cache', outside', answered', told'⟩ := w'
  obtain ⟨rfl, rfl, rfl, htold⟩ := hw
  have hsettle : ∀ {γ : Type} (r : Reaction K o.State γ),
      Alike n m (settle setting r ⟨cache, outside, answered, told⟩).2
        (settle setting' r ⟨cache, outside, answered, told'⟩).2 :=
    fun r => ⟨rfl, rfl, rfl, htold.append (.flatMap hs.receive r.notices)⟩
  cases action with
  | access change => exact ⟨rfl, rfl, rfl, rfl, htold⟩
  | log e => exact ⟨rfl, rfl, rfl, rfl, htold⟩
  | notify d => cases silent
  | openProvider | register | get | put | remove | removeAll => exact ⟨rfl, hsettle _⟩

theorem run_deliver (ds : List (Delivery V)) (next : Unit → Program σ K V α) (w : Scene o σ V) :
    ((deliver ds).bind next).run (Scene.act setting) w =
      (next ()).run (Scene.act setting) { w with told := w.told ++ ds } := by
  induction ds generalizing w with
  | nil =>
      rw [List.append_nil]
      rfl
  | cons d ds ih => exact (ih _).trans (by rw [List.append_assoc]; rfl)

/-- **So do whole programs**, and they come to the same result. -/
theorem Alike.run_program (hs : Setting.Counterparts n m setting setting')
    {p p' : Program σ K V α} (hp : Program.Counterparts n m p p') (hw : Alike n m w w') :
    (p.run (Scene.act setting) w).1 = (p'.run (Scene.act setting') w').1 ∧
      Alike n m (p.run (Scene.act setting) w).2 (p'.run (Scene.act setting') w').2 := by
  induction hp generalizing w w' with
  | done a => exact ⟨rfl, hw⟩
  | step silent _ ih =>
      obtain ⟨hanswer, hafter⟩ := hw.act hs silent
      rw [Program.run_step, Program.run_step, hanswer]
      exact ih _ hafter
  | log _ ih => exact ih hw
  | tell batches _ ih =>
      rw [run_deliver, run_deliver]
      exact ih (hw.tell (.of_deliveries batches))

/-- **One move keeps scenes alike.** -/
theorem Alike.move (hs : Setting.Counterparts n m setting setting') (hw : Alike n m w w')
    (x : Move o V) : Alike n m (w.move setting x) (w'.move setting' x) := by
  have hperform : (perform setting x w).1 = (perform setting' x w').1 ∧
      Alike n m (perform setting x w).2 (perform setting' x w').2 := by
    cases x with
    | call c => exact hw.run_program hs (hs.program c)
    | invalidate r => exact hw.run_program hs (hs.removeCounting r.lookupKeys 0)
    | incident i =>
        obtain ⟨cache, outside, answered, told⟩ := w
        obtain ⟨cache', outside', answered', told'⟩ := w'
        obtain ⟨rfl, rfl, rfl, htold⟩ := hw
        exact ⟨rfl, rfl, rfl, rfl, htold.append (.flatMap hs.receive _)⟩
  obtain ⟨hanswer, hafter⟩ := hperform
  refine ⟨hafter.cache, hafter.outside, ?_, hafter.told⟩
  rw [answered_move, answered_move, hanswer, hafter.answered]

theorem Alike.run (hs : Setting.Counterparts n m setting setting') (hw : Alike n m w w')
    (moves : List (Move o V)) : Alike n m (w.run setting moves) (w'.run setting' moves) := by
  induction moves generalizing w w' with
  | nil => exact hw
  | cons x moves ih => exact ih (hw.move hs x)

/-- **Listeners that only listen are not noticed.** -/
theorem listeners_go_unnoticed [Ord K] (o : Outside K) (serializer : Serializer V) (n m : Nat)
    (moves : List (Move o V)) (outside : o.State) :
    (∀ cache : LocalCache K V,
      Alike n m (run (.near n) moves { cache, outside }) (run (.near m) moves { cache, outside })) ∧
    ∀ cache : Connection,
      Alike n m (run (.far serializer n) moves { cache, outside })
        (run (.far serializer m) moves { cache, outside }) := by
  have hstart : ∀ {σ : Type} (cache : σ),
      Alike n m ({ cache, outside } : Scene o σ V) { cache, outside } :=
    fun _ => ⟨rfl, rfl, rfl, .nil⟩
  exact ⟨fun cache => (hstart cache).run (Setting.counterparts_near n m) moves,
    fun cache => (hstart cache).run (Setting.counterparts_far serializer n m) moves⟩

end Scene

end GenerationalCache
