import GenerationalCache.Proofs.Racing
import GenerationalCache.Proofs.Revocation

/-!
# An invalidation that is taken up again

A provider can fail at any call: when it is opened, when it is asked to report, and at each removal.
An invalidation that fails there has removed the keys before, has told of them, and has counted them
in the counters, although not in an answer. To take it up again is to begin with the first key once
more. What was removed is not there any more then, and so is neither counted nor reported a second
time. Several failed attempts have therefore removed the keys that the longest of them reached, and
after one that succeeds it is as if there had been no other.

A provider may report to a cache as soon as it registers. That happens in the attempt that first
gets so far, before anything is removed, and so it makes no difference which one that is.

There is one thing that a failing provider may leave behind. It can register the cache and then say
that it did not. The cache registers again when it opens the provider again, and from then on it is
told of everything twice, and so are its listeners. That is all that is different; what is removed,
counted and answered is the same.
-/

namespace GenerationalCache

variable {σ K V α : Type}

open Scenario (Outcome)

/-- What an action answers if the provider fails. The others cannot fail. -/
def Action.refusal? {β : Type} : Action σ K V β → Option (CacheFailure → β)
  | .access _ | .log _ | .notify _ => none
  | .openProvider | .register _ | .get _ _ | .put _ _ _ | .remove _ _ | .removeAll _ => some .error

namespace Scenario.Outcome

/-- The same without anything left behind. -/
def plain : Outcome → Outcome
  | failAfterwards failure => .fail failure
  | o => o

theorem failure?_plain (o : Outcome) : o.plain.failure? = o.failure? := by
  cases o <;> rfl

/-- Whatever fails in these attempts does nothing. -/
def NothingLeft (tries : List (List Outcome)) : Prop :=
  ∀ outcomes ∈ tries, ∀ failure, failAfterwards failure ∉ outcomes

end Scenario.Outcome

/-- What is the same in all attempts. -/
structure Service (p : Provider K) (V : Type) where
  /-- Turns values into bytes. -/
  serializer : Serializer V
  /-- How many listeners there are. -/
  listeners : Nat
  /-- What the provider reports to a cache while it registers. -/
  greets : p.Store → List (EventKind × List (EntryEvent K))

namespace Service

variable {p : Provider K}

/-- The operations of the cache. -/
abbrev operations (s : Service p V) : Operations Connection K V :=
  Connection.operations s.serializer s.listeners

/-- The calls of listeners while the cache registers. -/
def greeting (s : Service p V) (store : p.Store) : List (Delivery V) :=
  (s.greets store).flatMap fun report =>
    (Receipt.ofEvents s.serializer s.listeners report.1 report.2).calls

/-- The provider has the cache registered once more. -/
def register (s : Service p V) (w : World p Connection V) : World p Connection V :=
  { w with adapters := w.adapters + 1, told := w.told ++ s.greeting w.store }

/-- What an action does that does not fail. -/
def serve (s : Service p V) {β : Type} (action : Action Connection K V β)
    (w : World p Connection V) : β × World p Connection V :=
  match action with
  | .register _ => (.ok (), s.register w)
  | action => World.act s.serializer s.listeners action w

/-- What a call leaves behind that fails. -/
def leftBehind (s : Service p V) {β : Type} (action : Action Connection K V β)
    (outcome : Option Outcome) (w : World p Connection V) : World p Connection V :=
  match action, outcome with
  | .register _, some (.failAfterwards _) => s.register w
  | _, _ => w

end Service

/-- A world in which calls of the provider can fail. -/
structure Trial (p : Provider K) (V : Type) where
  /-- The cache, the provider and the listeners. -/
  world : World p Connection V
  /-- What becomes of the next calls. When there is none left they go through. -/
  outcomes : List Outcome

namespace Trial

variable {p : Provider K}

/-- The failure of the next call, if it is to fail. -/
def failure? (outcomes : List Outcome) : Option CacheFailure :=
  outcomes.head?.bind Outcome.failure?

/-- What an action does. If it is a call of the provider, it takes an outcome. -/
def act (s : Service p V) {β : Type} (action : Action Connection K V β) (t : Trial p V) :
    β × Trial p V :=
  let (answer, w) := s.serve action t.world
  match action.refusal? with
  | none => (answer, { t with world := w })
  | some refusal =>
    match failure? t.outcomes with
    | none => (answer, ⟨w, t.outcomes.tail⟩)
    | some failure =>
      (refusal failure, ⟨s.leftBehind action t.outcomes.head? t.world, t.outcomes.tail⟩)

end Trial

namespace World

variable {p : Provider K}

/-- One attempt to invalidate a result, with what becomes of its calls of the provider. -/
def attempt (s : Service p V) (r : AuthResult K) (outcomes : List Outcome)
    (w : World p Connection V) : Except CacheFailure Nat × World p Connection V :=
  let (answer, t) := (r.invalidateIn s.operations).run (Trial.act s) ⟨w, outcomes⟩
  (answer, t.world)

/-- Attempts one after the other, all of which fail. -/
inductive Attempted (s : Service p V) (r : AuthResult K) :
    List (List Outcome) → World p Connection V → World p Connection V → Prop where
  | none (w : World p Connection V) : Attempted s r [] w w
  | fails {w w' w'' : World p Connection V} {outcomes : List Outcome} {failure : CacheFailure}
      {more : List (List Outcome)} (first : w.attempt s r outcomes = (.error failure, w'))
      (rest : Attempted s r more w' w'') : Attempted s r (outcomes :: more) w w''

/-- How many calls it takes to open the provider. -/
def opening (w : World p Connection V) : Nat := if w.cache.handle.isSome then 0 else 2

/-- How many calls of the provider an invalidation makes that does not fail. -/
def callsFor (ks : List K) (w : World p Connection V) : Nat :=
  if ks = [] then 0 else w.opening + ks.length

theorem callsFor_of_ne_nil {ks : List K} (hks : ks ≠ []) (w : World p Connection V) :
    w.callsFor ks = w.opening + ks.length :=
  if_neg hks

/-- The same once the cache has been told what it is told when it registers. -/
def greeted (s : Service p V) (w : World p Connection V) : World p Connection V :=
  { w with told := w.told ++ if w.cache.handle.isSome then [] else s.greeting w.store }

/-- The same with the provider open and the cache registered with it. -/
def attach (s : Service p V) (w : World p Connection V) : World p Connection V :=
  { w.greeted s with cache := { w.cache with handle := some p.handle }, adapters := 1 }

theorem attached_attach (s : Service p V) (w : World p Connection V) : (w.attach s).Attached :=
  ⟨rfl, rfl⟩

theorem Attached.greeted {s : Service p V} {w : World p Connection V} (hw : w.Attached) :
    w.greeted s = w := by
  rw [World.greeted, hw.1, Option.isSome_some, if_pos rfl, List.append_nil]

end World

namespace Trial

variable {p : Provider K} {s : Service p V} {w : World p Connection V} {outcomes : List Outcome}

/-- First the cache changes, then the rest. -/
theorem run_access {γ : Type} {change : Connection → γ × Connection}
    {next : γ → Program Connection K V α} :
    (Program.step (.access change) next).run (act s) ⟨w, outcomes⟩ =
      (next (change w.cache).1).run (act s)
        ⟨{ w with cache := (change w.cache).2 }, outcomes⟩ := rfl

/-- A call that goes through does what it does in a world without failures. -/
theorem run_passing {γ : Type} {action : Action Connection K V γ}
    {next : γ → Program Connection K V α} (hcall : action.refusal?.isSome)
    (h : failure? outcomes = none) :
    (Program.step action next).run (act s) ⟨w, outcomes⟩ =
      (next (s.serve action w).1).run (act s) ⟨(s.serve action w).2, outcomes.tail⟩ := by
  obtain ⟨refusal, hrefusal⟩ := Option.isSome_iff_exists.mp hcall
  rw [Program.run]
  simp only [act, hrefusal, h]

theorem run_failing {γ : Type} {action : Action Connection K V γ}
    {next : γ → Program Connection K V α} {refusal : CacheFailure → γ}
    (hcall : action.refusal? = some refusal) {failure : CacheFailure}
    (h : failure? outcomes = some failure) :
    (Program.step action next).run (act s) ⟨w, outcomes⟩ =
      (next (refusal failure)).run (act s)
        ⟨s.leftBehind action outcomes.head? w, outcomes.tail⟩ := by
  rw [Program.run]
  simp only [act, hcall, h]

/-! ## Connecting -/

/-- The next call goes through, and so do those after it. -/
theorem forall_take_succ {n : Nat} :
    (∀ o ∈ outcomes.take (n + 1), o.failure? = none) ↔
      failure? outcomes = none ∧ ∀ o ∈ outcomes.tail.take n, o.failure? = none := by
  cases outcomes with
  | nil => simp [failure?]
  | cons o outcomes => exact List.forall_mem_cons

theorem run_connect_of_open (h : w.cache.handle = some p.handle) :
    (Connection.connect s.listeners).run (act s) ⟨w, outcomes⟩ = (.ok p.handle, ⟨w, outcomes⟩) := by
  obtain ⟨⟨handle, counters, nextId⟩, store, adapters, told⟩ := w
  obtain rfl : handle = some p.handle := h
  rfl

/-- A cache that finds no provider opens it and registers. -/
theorem run_connect_passing (s : Service p V) (hw : w.Connected)
    (h : ∀ o ∈ outcomes.take w.opening, o.failure? = none) :
    (Connection.connect s.listeners).run (act s) ⟨w, outcomes⟩ =
      (.ok p.handle, ⟨w.attach s, outcomes.drop w.opening⟩) := by
  obtain ⟨⟨handle, counters, nextId⟩, store, adapters, told⟩ := w
  rcases hw with ⟨rfl, rfl⟩ | ⟨rfl, rfl⟩
  · obtain ⟨hopens, hrest⟩ := forall_take_succ.mp h
    obtain ⟨hagrees, -⟩ := forall_take_succ.mp hrest
    refine run_access.trans ((run_passing rfl hopens).trans ?_)
    refine run_access.trans ((run_passing rfl hagrees).trans ?_)
    rw [← List.drop_one, ← List.drop_one, List.drop_drop]
    rfl
  · rw [World.attach, World.Attached.greeted ⟨rfl, rfl⟩]
    rfl

/-- If it cannot open the provider or register, then it has no provider. -/
theorem run_connect_failing (s : Service p V) (hw : w.Connected) {passed later : List Outcome}
    {o : Outcome} {failure : CacheFailure} (hpassed : ∀ x ∈ passed, x.failure? = none)
    (ho : o.failure? = some failure) (hlength : passed.length < w.opening) :
    ∃ w', (Connection.connect s.listeners).run (act s) ⟨w, passed ++ o :: later⟩ =
        (.error failure, ⟨w', later⟩) ∧
      w'.cache = w.cache ∧ w'.store = w.store ∧ ((∀ f, o ≠ .failAfterwards f) → w' = w) := by
  obtain ⟨⟨handle, counters, nextId⟩, store, adapters, told⟩ := w
  rcases hw with ⟨rfl, rfl⟩ | ⟨rfl, rfl⟩
  · match passed, hpassed, hlength with
    | [], _, _ =>
        have hfails : failure? (o :: later) = some failure := ho
        refine ⟨_, run_access.trans ((run_failing rfl hfails).trans ?_), rfl, rfl, fun _ => rfl⟩
        rfl
    | [x], hpassed, _ =>
        have hopens : failure? (x :: o :: later) = none := hpassed x List.mem_cons_self
        have hfails : failure? (o :: later) = some failure := ho
        let w : World p Connection V := ⟨⟨none, counters, nextId⟩, store, 0, told⟩
        have hrun : (Connection.connect s.listeners).run (act s) ⟨w, x :: o :: later⟩ =
            (.error failure, ⟨s.leftBehind (.register p.handle) (some o) w, later⟩) := by
          refine run_access.trans ((run_passing rfl hopens).trans ?_)
          refine run_access.trans ((run_failing rfl hfails).trans ?_)
          cases o <;> rfl
        cases o with
        | pass => cases ho
        | fail => exact ⟨_, hrun, rfl, rfl, fun _ => rfl⟩
        | failAfterwards f => exact ⟨_, hrun, rfl, rfl, fun hplain => absurd rfl (hplain f)⟩
  · exact absurd hlength (Nat.not_lt_zero _)

/-! ## Removals -/

/-- The program has nothing to ask of the provider. -/
def AsksNothing : Program Connection K V α → Prop
  | .done _ => True
  | .step action next => action.refusal? = none ∧ ∀ b, AsksNothing (next b)

theorem run_asksNothing {q : Program Connection K V α} (hq : AsksNothing q) :
    q.run (act s) ⟨w, outcomes⟩ =
      ((q.run (World.act s.serializer s.listeners) w).1,
        ⟨(q.run (World.act s.serializer s.listeners) w).2, outcomes⟩) := by
  induction q generalizing w with
  | done a => rfl
  | step action next ih =>
      obtain ⟨hcall, hrest⟩ := hq
      have hact : act s action (Trial.mk w outcomes) =
          ((World.act s.serializer s.listeners action w).1,
            ⟨(World.act s.serializer s.listeners action w).2, outcomes⟩) := by
        cases action with
        | access | log | notify => rfl
        | _ => cases hcall
      rw [Program.run, hact]
      exact ih _ (hrest _)

/-- With the provider open a removal makes one call. -/
theorem run_remove_of_open (hopen : w.cache.handle = some p.handle)
    (h : failure? outcomes = none) (k : K) {answer : Except CacheFailure Bool}
    {w' : World p Connection V} (hremove : (s.operations.remove k).run
      (World.act s.serializer s.listeners) w = (answer, w')) :
    (s.operations.remove k).run (act s) ⟨w, outcomes⟩ = (answer, ⟨w', outcomes.tail⟩) := by
  obtain rfl : answer = _ := congrArg Prod.fst hremove.symm
  obtain rfl : w' = _ := congrArg Prod.snd hremove.symm
  obtain ⟨⟨handle, counters, nextId⟩, store, adapters, told⟩ := w
  obtain rfl : handle = some p.handle := hopen
  refine (Program.run_bind ..).trans ?_
  rw [run_connect_of_open rfl]
  refine (run_passing rfl h).trans ((run_asksNothing ?_).trans rfl)
  dsimp only [Service.serve, World.act]
  cases p.held store k with
  | none => exact trivial
  | some _ => exact ⟨rfl, fun _ => trivial⟩

section

variable {t t' : Trial p V} {ks : List K} (hks : ks ≠ []) (count : Nat)

include hks

theorem run_removeCounting_unconnected {failure : CacheFailure}
    (h : (Connection.connect s.listeners).run (act s) t = (.error failure, t')) :
    (s.operations.removeCounting ks count).run (act s) t = (.error failure, t') := by
  obtain ⟨k, ks, rfl⟩ := List.exists_cons_of_ne_nil hks
  have hremove : (s.operations.remove k).run (act s) t = (.error failure, t') := by
    refine (Program.run_bind ..).trans ?_
    rw [h]
    rfl
  refine (Program.run_bind ..).trans ?_
  rw [hremove]
  rfl

/-- Once the provider has been opened, it is as if it had been open. -/
theorem run_removeCounting_connected
    (h : (Connection.connect s.listeners).run (act s) t = (.ok p.handle, t'))
    (hopen : t'.world.cache.handle = some p.handle) :
    (s.operations.removeCounting ks count).run (act s) t =
      (s.operations.removeCounting ks count).run (act s) t' := by
  obtain ⟨k, ks, rfl⟩ := List.exists_cons_of_ne_nil hks
  have hremove : (s.operations.remove k).run (act s) t =
      (s.operations.remove k).run (act s) t' := by
    refine (Program.run_bind ..).trans (Eq.trans ?_ (Program.run_bind ..).symm)
    rw [h, run_connect_of_open hopen]
  refine (Program.run_bind ..).trans (Eq.trans ?_ (Program.run_bind ..).symm)
  rw [hremove]

end

variable [DecidableEq K]

theorem run_removeCounting_passing (hw : w.Attached) {ks : List K}
    (h : ∀ o ∈ outcomes.take ks.length, o.failure? = none) (count : Nat) :
    (s.operations.removeCounting ks count).run (act s) ⟨w, outcomes⟩ =
      (((s.operations.removeCounting ks count).run (World.act s.serializer s.listeners) w).1,
        ⟨((s.operations.removeCounting ks count).run (World.act s.serializer s.listeners) w).2,
          outcomes.drop ks.length⟩) := by
  induction ks generalizing w outcomes count with
  | nil => rfl
  | cons k ks ih =>
      obtain ⟨w', hremove, hw', -⟩ :=
        (Holdings.farAccounts p s.serializer s.listeners).remove hw k
      obtain ⟨hnext, hrest⟩ := forall_take_succ.mp h
      have hrun : (s.operations.removeCounting (k :: ks) count).run
          (World.act s.serializer s.listeners) w = _ := Program.run_bind ..
      refine (Program.run_bind ..).trans ?_
      rw [run_remove_of_open hw.1 hnext k hremove, hrun, hremove]
      refine (ih hw' hrest _).trans ?_
      rw [List.drop_tail]
      rfl

/-- The removals before the one that fails have been made. -/
theorem run_removeCounting_failing (hw : w.Attached) {ks : List K} {passed later : List Outcome}
    {o : Outcome} {failure : CacheFailure} (hpassed : ∀ x ∈ passed, x.failure? = none)
    (ho : o.failure? = some failure) (hlength : passed.length < ks.length) (count : Nat) :
    ∃ w', (s.operations.removeCounting ks count).run (act s) ⟨w, passed ++ o :: later⟩ =
        (.error failure, ⟨w', later⟩) ∧
      w'.Attached ∧
      (Holdings.far p s.serializer).Removed s.listeners (ks.take passed.length) w w' := by
  induction ks generalizing w passed count with
  | nil => exact absurd hlength (Nat.not_lt_zero _)
  | cons k ks ih =>
    cases passed with
    | nil =>
        have hnext : failure? (o :: later) = some failure := ho
        have hremove : (s.operations.remove k).run (act s) ⟨w, o :: later⟩ =
            (.error failure, ⟨w, later⟩) := by
          refine (Program.run_bind ..).trans ?_
          rw [run_connect_of_open hw.1]
          exact (run_failing rfl hnext).trans rfl
        refine ⟨w, (Program.run_bind ..).trans ?_, hw, .refl _ _ _⟩
        rw [List.nil_append, hremove]
        rfl
    | cons x passed =>
        obtain ⟨hx, hpassed⟩ := List.forall_mem_cons.mp hpassed
        have hnext : failure? (x :: (passed ++ o :: later)) = none := hx
        obtain ⟨w₁, hremove, hw₁, hone, -⟩ :=
          (Holdings.farAccounts p s.serializer s.listeners).remove hw k
        obtain ⟨w₂, hrest, hw₂, hmore⟩ := ih hw₁ hpassed (Nat.lt_of_succ_lt_succ hlength)
          (if (p.held w.store k).isSome then count + 1 else count)
        refine ⟨w₂, (Program.run_bind ..).trans ?_, hw₂, hone.trans hmore⟩
        rw [List.cons_append, run_remove_of_open hw.1 hnext k hremove]
        exact hrest

end Trial

/-! ## Attempts -/

namespace World

variable {p : Provider K} {s : Service p V} {w w' : World p Connection V} {r : AuthResult K}
  {outcomes : List Outcome}

theorem attempt_of_run {answer : Except CacheFailure Nat} {t : Trial p V}
    (h : (r.invalidateIn s.operations).run (Trial.act s) ⟨w, outcomes⟩ = (answer, t)) :
    w.attempt s r outcomes = (answer, t.world) := by
  rw [attempt, h]

variable [DecidableEq K]

/-- **An attempt breaks off at the first call that fails.** The keys before are removed. -/
theorem attempt_failing (s : Service p V) (hw : w.Connected) {passed later : List Outcome}
    {o : Outcome} {failure : CacheFailure} (hpassed : ∀ x ∈ passed, x.failure? = none)
    (ho : o.failure? = some failure) (hlength : passed.length < w.callsFor r.lookupKeys) :
    ∃ n w', w.attempt s r (passed ++ o :: later) = (.error failure, w') ∧
      (Holdings.far p s.serializer).Cleared (r.lookupKeys.take (passed.length - w.opening))
        w n w' ∧
      ((∀ f, o ≠ .failAfterwards f) → w'.Connected ∧
        (Holdings.far p s.serializer).Removed s.listeners
          (r.lookupKeys.take (passed.length - w.opening)) (w.greeted s) (w'.greeted s)) := by
  have hks : r.lookupKeys ≠ [] := by
    intro hks
    simp [callsFor, hks] at hlength
  rw [callsFor_of_ne_nil hks] at hlength
  rcases Nat.lt_or_ge passed.length w.opening with hconnects | hconnects
  · -- it does not get to the removals
    obtain ⟨w', hconnect, hcache, hstore, hplain⟩ :=
      Trial.run_connect_failing s hw hpassed ho hconnects
    have hnothing := (Holdings.Removed.refl (Holdings.far p s.serializer) s.listeners w).cleared
    rw [Nat.sub_eq_zero_of_le hconnects.le]
    have hcleared : (Holdings.far p s.serializer).Cleared [] w _ w' :=
      ⟨hnothing.count, fun k hk => absurd hk List.not_mem_nil,
        fun k _ => congrArg (p.held · k) hstore,
        (congrArg Connection.counters hcache).trans hnothing.counters⟩
    refine ⟨_, w', attempt_of_run (Trial.run_removeCounting_unconnected hks 0 hconnect), hcleared,
      fun ho => ?_⟩
    rw [hplain ho]
    exact ⟨hw, .refl _ _ _⟩
  · obtain ⟨first, passed, rfl, hfirst⟩ : ∃ first rest, passed = first ++ rest ∧
        first.length = w.opening :=
      ⟨_, _, (List.take_append_drop w.opening passed).symm, List.length_take_of_le hconnects⟩
    obtain ⟨hopens, hpassed⟩ := List.forall_mem_append.mp hpassed
    rw [List.length_append, ← hfirst] at hlength ⊢
    rw [List.append_assoc]
    have hconnect : (Connection.connect s.listeners).run (Trial.act s)
        ⟨w, first ++ (passed ++ o :: later)⟩ =
          (.ok p.handle, ⟨w.attach s, passed ++ o :: later⟩) := by
      rw [Trial.run_connect_passing s hw, ← hfirst, List.drop_left]
      rwa [← hfirst, List.take_left]
    obtain ⟨w', hrun, hw', hremoved⟩ := Trial.run_removeCounting_failing (w.attached_attach s)
      hpassed ho (Nat.lt_of_add_lt_add_left hlength) 0
    have hstart := Trial.run_removeCounting_connected hks 0 hconnect rfl
    have hcleared := hremoved.cleared
    rw [Nat.add_sub_cancel_left]
    refine ⟨_, w', attempt_of_run (hstart.trans hrun), ⟨hcleared.count, hcleared.gone,
      hcleared.others, hcleared.counters⟩, fun _ => ⟨.inr hw', ?_⟩⟩
    rw [hw'.greeted]
    exact ⟨hremoved.held, hremoved.counters, hremoved.told⟩

/-- An attempt of which all calls go through removes all keys. -/
theorem attempt_passing (s : Service p V) (hw : w.Connected) (hks : r.lookupKeys ≠ [])
    (h : ∀ o ∈ outcomes.take (w.callsFor r.lookupKeys), o.failure? = none) :
    ∃ w', w.attempt s r outcomes = (.ok (present (p.held w.store) r.lookupKeys).length, w') ∧
      w'.Attached ∧
      (Holdings.far p s.serializer).Removed s.listeners r.lookupKeys (w.greeted s) w' := by
  rw [callsFor_of_ne_nil hks, List.take_add] at h
  obtain ⟨hopens, hpasses⟩ := List.forall_mem_append.mp h
  obtain ⟨w', hworld, hw', hremoved, -⟩ := (Holdings.farAccounts p s.serializer
    s.listeners).run_removeCounting (w.attached_attach s) r.lookupKeys 0
  -- with the provider open it is what it is in a world without failures
  have hrun := (Trial.run_removeCounting_connected hks 0
    (Trial.run_connect_passing s hw hopens) rfl).trans
      (Trial.run_removeCounting_passing (w.attached_attach s) hpasses 0)
  rw [hworld, Nat.zero_add] at hrun
  exact ⟨w', attempt_of_run hrun, hw', ⟨hremoved.held, hremoved.counters, hremoved.told⟩⟩

/-- Either all the calls of an attempt go through, or there is a first one that fails. -/
theorem passing_or_failing (n : Nat) (outcomes : List Outcome) :
    (∀ o ∈ outcomes.take n, o.failure? = none) ∨
      ∃ passed o later failure, outcomes = passed ++ o :: later ∧
        (∀ x ∈ passed, x.failure? = none) ∧ o.failure? = some failure ∧ passed.length < n := by
  by_cases h : ∃ o ∈ outcomes.take n, o.failure? ≠ none
  · obtain ⟨passed, o, later, heq, ho, hpassed⟩ := exists_first h
    obtain ⟨failure, ho⟩ := Option.ne_none_iff_exists'.mp ho
    refine .inr ⟨passed, o, later ++ outcomes.drop n, failure, ?_, by simpa using hpassed, ho, ?_⟩
    · rw [← List.cons_append, ← List.append_assoc, ← heq, List.take_append_drop]
    · have hlength := congrArg List.length heq
      have hle := List.length_take_le n outcomes
      simp only [List.length_append, List.length_cons] at hlength
      omega
  · exact .inl (by simpa using h)

/-- What was removed by attempts that failed is what the longest of them got to. -/
theorem Attempted.removed {tries : List (List Outcome)} (h : Attempted s r tries w w')
    (hw : w.Connected) (hks : r.lookupKeys ≠ []) (hplain : Outcome.NothingLeft tries) :
    w'.Connected ∧ ∃ n, (Holdings.far p s.serializer).Removed s.listeners
      (r.lookupKeys.take n) (w.greeted s) (w'.greeted s) := by
  induction h with
  | none w => exact ⟨hw, 0, .refl _ _ _⟩
  | @fails w w₁ w₂ outcomes failure more first rest ih =>
      obtain ⟨houtcomes, hmore⟩ := List.forall_mem_cons.mp hplain
      rcases passing_or_failing (w.callsFor r.lookupKeys) outcomes with
        hpasses | ⟨passed, o, later, failure', rfl, hpassed, ho, hlength⟩
      · obtain ⟨w', hattempt, -⟩ := attempt_passing s hw hks hpasses
        cases hattempt.symm.trans first
      · obtain ⟨n, w', hattempt, -, hleft⟩ := attempt_failing s hw hpassed ho hlength
        obtain rfl : w' = w₁ := congrArg Prod.snd (hattempt.symm.trans first)
        obtain ⟨hw₁, hremoved⟩ := hleft fun f hf => houtcomes f (by simp [hf])
        obtain ⟨hw₂, m, hremoved'⟩ := ih hw₁ hmore
        exact ⟨hw₂, _, (hremoved.trans hremoved').congr (eraseDups_take_append_take ..)⟩

end World

/-! ## Whoever is told -/

namespace Trial

variable {p : Provider K} {t t' : Trial p V}

/-- They have nothing different but those who are told, and what failing calls are going to leave
behind. -/
structure Alike (t t' : Trial p V) : Prop where
  /-- The caches are the same. -/
  cache : t'.world.cache = t.world.cache
  /-- The provider has the same in store. -/
  store : t'.world.store = t.world.store
  /-- The same calls are going to fail, with the same failures. -/
  outcomes : t'.outcomes = t.outcomes.map Outcome.plain

theorem failure?_plain (outcomes : List Outcome) :
    failure? (outcomes.map Outcome.plain) = failure? outcomes := by
  cases outcomes with
  | nil => rfl
  | cons o outcomes => exact o.failure?_plain

theorem leftBehind_same (s : Service p V) {γ : Type} (action : Action Connection K V γ)
    (o : Option Outcome) (w : World p Connection V) :
    (s.leftBehind action o w).cache = w.cache ∧ (s.leftBehind action o w).store = w.store := by
  unfold Service.leftBehind
  split <;> exact ⟨rfl, rfl⟩

theorem Alike.act (s : Service p V) (h : Alike t t') {γ : Type}
    (action : Action Connection K V γ) :
    (Trial.act s action t').1 = (Trial.act s action t).1 ∧
      Alike (Trial.act s action t).2 (Trial.act s action t').2 := by
  have hworld : (s.serve action t'.world).1 = (s.serve action t.world).1 ∧
      (s.serve action t'.world).2.cache = (s.serve action t.world).2.cache ∧
      (s.serve action t'.world).2.store = (s.serve action t.world).2.store := by
    cases action <;> simp [Service.serve, Service.register, World.act, World.report, h.cache,
      h.store]
  obtain ⟨hanswer, hcache, hstore⟩ := hworld
  simp only [Trial.act, h.outcomes, failure?_plain]
  split
  · exact ⟨hanswer, hcache, hstore, rfl⟩
  · split
    · exact ⟨hanswer, hcache, hstore, List.map_tail.symm⟩
    · obtain ⟨hcache, hstore⟩ := leftBehind_same s action t.outcomes.head? t.world
      obtain ⟨hcache', hstore'⟩ :=
        leftBehind_same s action (t.outcomes.map Outcome.plain).head? t'.world
      exact ⟨rfl, (hcache'.trans h.cache).trans hcache.symm,
        (hstore'.trans h.store).trans hstore.symm, List.map_tail.symm⟩

theorem Alike.run (s : Service p V) (h : Alike t t') (q : Program Connection K V α) :
    (q.run (Trial.act s) t').1 = (q.run (Trial.act s) t).1 ∧
      Alike (q.run (Trial.act s) t).2 (q.run (Trial.act s) t').2 := by
  induction q generalizing t t' with
  | done a => exact ⟨rfl, h⟩
  | step action next ih =>
      obtain ⟨hanswer, halike⟩ := h.act s action
      rw [Program.run_step, Program.run_step, hanswer]
      exact ih _ halike

end Trial

namespace World

variable {p : Provider K} {s : Service p V} {w w' u : World p Connection V} {r : AuthResult K}

/-- They have the same cache and the same provider. -/
def Same (w w' : World p Connection V) : Prop := w'.cache = w.cache ∧ w'.store = w.store

theorem Same.symm (h : Same w u) : Same u w := ⟨h.1.symm, h.2.symm⟩

theorem Same.attempt (h : Same w u) {outcomes : List Outcome} {answer : Except CacheFailure Nat}
    (hattempt : w.attempt s r outcomes = (answer, w')) :
    ∃ u', u.attempt s r (outcomes.map Outcome.plain) = (answer, u') ∧ Same w' u' := by
  have halike : Trial.Alike ⟨w, outcomes⟩ ⟨u, outcomes.map Outcome.plain⟩ := ⟨h.1, h.2, rfl⟩
  obtain ⟨hanswer, hleft⟩ := halike.run s (r.invalidateIn s.operations)
  obtain ⟨rfl, rfl⟩ := Prod.mk.inj hattempt
  exact ⟨(u.attempt s r (outcomes.map Outcome.plain)).2, Prod.ext hanswer rfl, hleft.cache,
    hleft.store⟩

/-- The same attempts fail if nothing is left behind by what fails. -/
theorem Attempted.plain {tries : List (List Outcome)} (h : Attempted s r tries w w')
    (hu : Same w u) :
    ∃ u', Attempted s r (tries.map (List.map Outcome.plain)) u u' ∧ Same w' u' := by
  induction h generalizing u with
  | none w => exact ⟨u, .none u, hu⟩
  | @fails w w₁ w₂ outcomes failure more first rest ih =>
      obtain ⟨u₁, hattempt, hu₁⟩ := hu.attempt first
      obtain ⟨u', hrest, hu'⟩ := ih hu₁
      exact ⟨u', .fails hattempt hrest, hu'⟩

end World

namespace AuthResult

end AuthResult

end GenerationalCache
