import GenerationalCache.Proofs.Visits
import Mathlib.Logic.Relation

/-!
# A local cache in use

Any number of clients use a cache at the same time, and so do the listeners that it calls. An
operation that a listener begins from inside a call is begun while the operation that makes the call
is still in progress, and it ends, or goes on, before that one does. An operation of another thread
may do the same. So the cache in use is a state with any number of operations in progress, each as
far as it has got: an operation may begin at any time, and any operation in progress may take its
next action. Every behaviour of the listeners, every nesting of their calls and every interleaving
of threads is among the runs of this machine.

What an operation does is not described anew: it is the program of the operation, and the machine
performs its actions.

The state also keeps what has happened. The invariant is that the past accounts for everything: the
history leads from the new cache to the present one, an operation past its critical section has
nothing left to do but to make the calls that its visit requires, and each call required by a visit
either has been made or is still to be made.
-/

namespace GenerationalCache

variable {σ K V α β : Type}

/-! ## What is left of a program -/

namespace Program

/-- The calls of listeners that a program is about to make. -/
def outstanding : Program σ K V α → List (Delivery V)
  | .step (.notify d) next => d :: (next ()).outstanding
  | .step (.log _) next => (next ()).outstanding
  | _ => []

/-- All that a program still does is to write lines of the log and to make these calls, in this
order, before it ends with this result. -/
inductive Finishing : Program σ K V α → List (Delivery V) → α → Prop where
  /-- Nothing is left to do. -/
  | done (a : α) : Finishing (.done a) [] a
  /-- A line of the log comes first. -/
  | log {e : LogEvent} {next : Unit → Program σ K V α} {ds : List (Delivery V)} {a : α}
      (rest : Finishing (next ()) ds a) : Finishing (.step (.log e) next) ds a
  /-- A call comes first. -/
  | notify {d : Delivery V} {next : Unit → Program σ K V α} {ds : List (Delivery V)} {a : α}
      (rest : Finishing (next ()) ds a) : Finishing (.step (.notify d) next) (d :: ds) a

theorem Finishing.outstanding_eq {p : Program σ K V α} {ds : List (Delivery V)} {a : α}
    (h : p.Finishing ds a) : p.outstanding = ds := by
  induction h with
  | done a => rfl
  | log _ ih => exact ih
  | notify _ ih => exact congrArg _ ih

theorem Finishing.bind {p : Program σ K V α} {f : α → Program σ K V β}
    {ds es : List (Delivery V)} {a : α} {b : β} (hp : p.Finishing ds a)
    (hf : (f a).Finishing es b) : (p.bind f).Finishing (ds ++ es) b := by
  induction hp with
  | done a => exact hf
  | log _ ih => exact .log (ih hf)
  | notify _ ih => exact .notify (ih hf)

/-- A result may still be put into another form. -/
theorem Finishing.bind_done {p : Program σ K V α} {ds : List (Delivery V)} {a : α}
    (h : p.Finishing ds a) (f : α → β) : (p.bind fun a => .done (f a)).Finishing ds (f a) := by
  simpa using h.bind (f := fun a => .done (f a)) (.done (f a))

theorem finishing_logAll (es : List LogEvent) :
    (logAll es : Program σ K V Unit).Finishing [] () := by
  induction es with
  | nil => exact .done ()
  | cons e es ih => exact .log ih

theorem finishing_deliver (ds : List (Delivery V)) :
    (deliver ds : Program σ K V Unit).Finishing ds () := by
  induction ds with
  | nil => exact .done ()
  | cons d ds ih => exact .notify ih

/-- Lines of the log, and then calls. -/
theorem finishing_report (es : List LogEvent) (ds : List (Delivery V)) :
    ((logAll es).bind fun _ => deliver ds : Program σ K V Unit).Finishing ds () :=
  (finishing_logAll es).bind (f := fun _ => deliver ds) (finishing_deliver ds)

end Program

/-- To nobody nothing is told. -/
@[simp] theorem deliveries_zero (batches : List (Batch V)) : deliveries 0 batches = [] :=
  List.flatMap_eq_nil_iff.mpr fun _ _ => rfl

/-- Whether or not the value is asked for, the calls are the same. -/
theorem LocalCache.deliveries_removalBatches (listeners : Nat) (removed : Option (Entry V)) :
    deliveries listeners (removalBatches listeners removed) =
      deliveries listeners (Batch.ofValues (removed.bind Entry.value).toList .invalidated) := by
  rw [removalBatches]
  split
  · next hzero => rw [hzero, deliveries_zero, deliveries_zero]
  · rfl

variable [Ord K]

/-- **Every operation of a local cache is a visit and its calls.** It begins with its critical
section, and after that it only writes to the log, makes the calls that the visit requires, and
answers as the visit says. -/
theorem LocalCache.program_eq (listeners : Nat) (call : Call K V) :
    ∃ (β : Type) (change : LocalCache K V → β × LocalCache K V)
      (next : β → Program (LocalCache K V) K V call.Answer),
      (LocalCache.operations listeners).program call = .step (.access change) next ∧
      ∀ c : LocalCache K V, (change c).2 = (Visit.mk call c).left ∧
        (next (change c).1).Finishing (deliveries listeners (Visit.mk call c).batches)
          (Visit.mk call c).answer := by
  cases call with
  | lookup k => exact ⟨_, _, _, rfl, fun c => ⟨rfl, .done _⟩⟩
  | get k => exact ⟨_, _, _, rfl, fun c => ⟨rfl, .done _⟩⟩
  | insert k x =>
      exact ⟨_, _, _, rfl, fun c => ⟨rfl, (Program.finishing_report _ _).bind_done Except.ok⟩⟩
  | remove k =>
      refine ⟨_, _, _, rfl, fun c => ⟨rfl, ?_⟩⟩
      rw [Visit.batches, ← LocalCache.deliveries_removalBatches]
      exact ((Program.finishing_deliver _).bind_done fun _ => (c.remove k).1.isSome).bind_done
        Except.ok
  | clear =>
      exact ⟨_, _, _, rfl, fun c => ⟨rfl, (Program.finishing_deliver _).bind_done Except.ok⟩⟩
  | evictStale => exact ⟨_, _, _, rfl, fun c => ⟨rfl, Program.finishing_report _ _⟩⟩
  | evictionRequired =>
      exact ⟨_, _, _, rfl, fun c => ⟨rfl, (Program.finishing_logAll _).bind_done fun _ =>
        c.evictionRequired⟩⟩

/-! ## The machine -/

/-- An operation in progress. -/
inductive Ongoing (K V : Type) [Ord K] : Type 1 where
  /-- It was called, and its critical section is still to come. -/
  | waiting (call : Call K V)
  /-- Its critical section is over, and this is what it has left to do. -/
  | finishing (visit : Visit K V) (rest : Program (LocalCache K V) K V visit.call.Answer)

/-- A local cache in use. -/
structure Usage (K V : Type) [Ord K] : Type 1 where
  /-- The cache. -/
  cache : LocalCache K V
  /-- The operations in progress. -/
  ongoing : List (Ongoing K V) := []
  /-- The critical sections that have run, in their order. -/
  history : List (Visit K V) := []
  /-- The calls of listeners that have been made, in their order, each with the visit that required
  it. -/
  told : List (Visit K V × Delivery V) := []
  /-- The answers that have been given, in their order. -/
  answered : List ((visit : Visit K V) × visit.call.Answer) := []

namespace Usage

/-- A new cache that nobody uses yet. -/
def start (limit : EntryLimit) : Usage K V := { cache := { limit } }

/-- One step of a cache in use that has this many listeners. -/
inductive Step (listeners : Nat) : Usage K V → Usage K V → Prop where
  /-- A client, or a listener from inside a call, begins an operation. -/
  | call (s : Usage K V) (c : Call K V) :
      Step listeners s { s with ongoing := .waiting c :: s.ongoing }
  /-- An operation runs its critical section. -/
  | enter {s : Usage K V} {c : Call K V} {β : Type} {change : LocalCache K V → β × LocalCache K V}
      {next : β → Program (LocalCache K V) K V c.Answer} {before after : List (Ongoing K V)}
      (here : s.ongoing = before ++ .waiting c :: after)
      (program : (LocalCache.operations listeners).program c = .step (.access change) next) :
      Step listeners s { s with
        cache := (change s.cache).2
        ongoing := before ++ .finishing ⟨c, s.cache⟩ (next (change s.cache).1) :: after
        history := s.history ++ [⟨c, s.cache⟩] }
  /-- An operation writes a line of the log. -/
  | log {s : Usage K V} {v : Visit K V} {e : LogEvent}
      {next : Unit → Program (LocalCache K V) K V v.call.Answer} {before after : List (Ongoing K V)}
      (here : s.ongoing = before ++ .finishing v (.step (.log e) next) :: after) :
      Step listeners s { s with ongoing := before ++ .finishing v (next ()) :: after }
  /-- An operation calls a listener. -/
  | notify {s : Usage K V} {v : Visit K V} {d : Delivery V}
      {next : Unit → Program (LocalCache K V) K V v.call.Answer} {before after : List (Ongoing K V)}
      (here : s.ongoing = before ++ .finishing v (.step (.notify d) next) :: after) :
      Step listeners s { s with
        ongoing := before ++ .finishing v (next ()) :: after
        told := s.told ++ [(v, d)] }
  /-- An operation ends. -/
  | answer {s : Usage K V} {v : Visit K V} {a : v.call.Answer} {before after : List (Ongoing K V)}
      (here : s.ongoing = before ++ .finishing v (.done a) :: after) :
      Step listeners s { s with
        ongoing := before ++ after
        answered := s.answered ++ [⟨v, a⟩] }

/-- One state may follow another, after any number of steps. -/
def Leads (listeners : Nat) : Usage K V → Usage K V → Prop := Relation.ReflTransGen (Step listeners)

/-- A state of some run on a cache with this limit and this many listeners. -/
def Reachable (listeners : Nat) (limit : EntryLimit) (s : Usage K V) : Prop :=
  Leads listeners (start limit) s

end Usage

/-! ## The past accounts for the present -/

/-- The calls that a visit requires. -/
def Visit.calls (listeners : Nat) (v : Visit K V) : List (Visit K V × Delivery V) :=
  (deliveries listeners v.batches).map (v, ·)

namespace Ongoing

/-- The calls that an operation in progress is still to make. -/
def outstanding : Ongoing K V → List (Visit K V × Delivery V)
  | waiting _ => []
  | finishing v rest => rest.outstanding.map (v, ·)

/-- The visit of an operation that is past its critical section. -/
def visit? : Ongoing K V → Option (Visit K V)
  | waiting _ => none
  | finishing v _ => some v

/-- The operation has run its critical section if it is past it, and all it has left to do is to
make the last ones of the calls that its visit requires and to answer as the visit says. -/
def Sound (listeners : Nat) (history : List (Visit K V)) : Ongoing K V → Prop
  | waiting _ => True
  | finishing v rest =>
    v ∈ history ∧ ∃ ds, ds <:+ deliveries listeners v.batches ∧ rest.Finishing ds v.answer

theorem Sound.mono {listeners : Nat} {h h' : List (Visit K V)} {o : Ongoing K V}
    (ho : o.Sound listeners h) (hh : ∀ v ∈ h, v ∈ h') : o.Sound listeners h' := by
  cases o with
  | waiting c => trivial
  | finishing v rest => exact ⟨hh v ho.1, ho.2⟩

end Ongoing

/-- The visits of operations that are called one after the other. -/
def LocalCache.visitsOf : LocalCache K V → List (Call K V) → List (Visit K V)
  | _, [] => []
  | cache, call :: calls => ⟨call, cache⟩ :: visitsOf (Visit.mk call cache).left calls

namespace Usage

/-- The calls that are still to be made. -/
def outstanding (s : Usage K V) : List (Visit K V × Delivery V) :=
  s.ongoing.flatMap Ongoing.outstanding

/-- What holds at every moment of every run. -/
structure Sound (listeners : Nat) (limit : EntryLimit) (s : Usage K V) : Prop where
  /-- The history leads from the new cache to the present one. -/
  chronicle : Chronicle { limit } s.history s.cache
  /-- No operation in progress will do anything but what its visit requires. -/
  ongoing : ∀ o ∈ s.ongoing, o.Sound listeners s.history
  /-- Answers are those of the visits. -/
  answered : ∀ a ∈ s.answered, a.1 ∈ s.history ∧ a.2 = a.1.answer
  /-- Each call that a visit requires is either still to be made or has been made. -/
  calls : (s.history.flatMap (Visit.calls listeners)).Perm (s.outstanding ++ s.told)

theorem sound_start (listeners : Nat) (limit : EntryLimit) :
    (start limit : Usage K V).Sound listeners limit where
  chronicle := .nil
  ongoing := by simp [start]
  answered := by simp [start]
  calls := by simp [start, outstanding]

theorem Sound.around {listeners : Nat} {limit : EntryLimit} {s : Usage K V}
    (h : s.Sound listeners limit) {before after : List (Ongoing K V)} {o : Ongoing K V}
    (here : s.ongoing = before ++ o :: after) :
    (∀ x ∈ before ++ after, x.Sound listeners s.history) ∧ o.Sound listeners s.history := by
  refine ⟨fun x hx => h.ongoing x ?_, h.ongoing o (by simp [here])⟩
  rw [here]
  rcases List.mem_append.mp hx with hx | hx
  · exact List.mem_append_left _ hx
  · exact List.mem_append_right _ (List.mem_cons_of_mem _ hx)

theorem sound_around {listeners : Nat} {h h' : List (Visit K V)} {before after : List (Ongoing K V)}
    {o : Ongoing K V} (hx : ∀ x ∈ before ++ after, x.Sound listeners h) (ho : o.Sound listeners h')
    (hh : ∀ v ∈ h, v ∈ h') : ∀ x ∈ before ++ o :: after, x.Sound listeners h' := by
  intro x hm
  rcases List.mem_append.mp hm with hm | hm
  · exact (hx x (List.mem_append_left _ hm)).mono hh
  · rcases List.mem_cons.mp hm with rfl | hm
    · exact ho
    · exact (hx x (List.mem_append_right _ hm)).mono hh

/-- Every step keeps the past in account with the present. -/
theorem sound_step {listeners : Nat} {limit : EntryLimit} {s s' : Usage K V}
    (h : s.Sound listeners limit) (hs : Step listeners s s') : s'.Sound listeners limit := by
  have hcalls := h.calls
  cases hs with
  | call c =>
      refine ⟨h.chronicle, ?_, h.answered, hcalls⟩
      intro o ho
      rcases List.mem_cons.mp ho with rfl | ho
      · trivial
      · exact h.ongoing o ho
  | @enter c β change next before after here program =>
      obtain ⟨β', change', next', hp, hv⟩ := LocalCache.program_eq listeners c
      rw [hp] at program
      cases program
      obtain ⟨hleft, hrest⟩ := hv s.cache
      have hmono : ∀ v ∈ s.history, v ∈ s.history ++ [⟨c, s.cache⟩] :=
        fun v hv => List.mem_append_left _ hv
      refine ⟨?_, ?_, ?_, ?_⟩
      · rw [hleft]
        exact Chronicle.snoc ⟨c, s.cache⟩ h.chronicle
      · exact sound_around (h.around here).1 ⟨by simp, _, List.suffix_refl _, hrest⟩ hmono
      · intro a ha
        exact ⟨hmono _ (h.answered a ha).1, (h.answered a ha).2⟩
      · -- the new visit owes all of its calls, and the operation is about to make them all
        simp only [outstanding, here, List.flatMap_append, List.flatMap_cons, List.flatMap_nil,
          Ongoing.outstanding, List.nil_append, hrest.outstanding_eq, List.append_nil,
          List.append_assoc] at hcalls ⊢
        refine (hcalls.append_right _).trans ?_
        rw [List.append_assoc]
        refine List.Perm.append_left _ (List.Perm.trans ?_ List.perm_append_comm)
        exact .refl _
  | @log v e next before after here =>
      obtain ⟨hothers, hv, ds, hds, hrest⟩ := h.around here
      cases hrest with
      | log hrest =>
        refine ⟨h.chronicle, ?_, h.answered, ?_⟩
        · exact sound_around hothers ⟨hv, ds, hds, hrest⟩ fun _ => id
        · simpa [outstanding, here, Ongoing.outstanding, Program.outstanding] using hcalls
  | @notify v d next before after here =>
      obtain ⟨hothers, hv, ds, hds, hrest⟩ := h.around here
      cases hrest with
      | @notify _ _ ds _ hrest =>
        refine ⟨h.chronicle, ?_, h.answered, ?_⟩
        · exact sound_around hothers ⟨hv, ds, (List.suffix_cons d ds).trans hds, hrest⟩ fun _ => id
        · -- the call moves from those still to be made to those that have been made
          simp only [outstanding, here, List.flatMap_append, List.flatMap_cons,
            Ongoing.outstanding, Program.outstanding, List.map_cons, List.append_assoc,
            List.cons_append] at hcalls ⊢
          refine hcalls.trans (List.Perm.append_left _ ?_)
          rw [← List.append_assoc, ← List.append_assoc, ← List.append_assoc]
          exact (List.perm_append_singleton _ _).symm
  | @answer v a before after here =>
      obtain ⟨hothers, hv, ds, hds, hrest⟩ := h.around here
      cases hrest with
      | done =>
        refine ⟨h.chronicle, hothers, ?_, ?_⟩
        · intro x hx
          rcases List.mem_append.mp hx with hx | hx
          · exact h.answered x hx
          · obtain rfl := List.mem_singleton.mp hx
            exact ⟨hv, rfl⟩
        · simpa [outstanding, here, Ongoing.outstanding, Program.outstanding] using hcalls

/-- Operations in progress can be run to their end. -/
theorem leads_finishing {listeners : Nat} {v : Visit K V}
    {rest : Program (LocalCache K V) K V v.call.Answer} {ds : List (Delivery V)}
    {a : v.call.Answer} (hrest : rest.Finishing ds a) (before after : List (Ongoing K V))
    (s : Usage K V) (here : s.ongoing = before ++ .finishing v rest :: after) :
    Leads listeners s { s with
      ongoing := before ++ after
      told := s.told ++ ds.map (v, ·)
      answered := s.answered ++ [⟨v, a⟩] } := by
  induction hrest generalizing s with
  | done a =>
      rw [List.map_nil, List.append_nil]
      exact .single (Step.answer here)
  | log _ ih => exact .head (Step.log here) (ih _ rfl)
  | @notify d _ ds _ _ ih =>
      rw [List.map_cons, List.append_cons]
      exact .head (Step.notify here) (ih _ rfl)

/-- **An operation that is called now and not disturbed runs to its end.** It makes the calls that
its visit requires, and gives the answer of its visit. -/
theorem leads_alone (listeners : Nat) (s : Usage K V) (c : Call K V) :
    Leads listeners s { s with
      cache := (Visit.mk c s.cache).left
      history := s.history ++ [⟨c, s.cache⟩]
      told := s.told ++ Visit.calls listeners ⟨c, s.cache⟩
      answered := s.answered ++ [⟨⟨c, s.cache⟩, Visit.answer ⟨c, s.cache⟩⟩] } := by
  obtain ⟨β, change, next, hp, hv⟩ := LocalCache.program_eq listeners c
  obtain ⟨hleft, hrest⟩ := hv s.cache
  have here : ({ s with ongoing := .waiting c :: s.ongoing } : Usage K V).ongoing =
      [] ++ .waiting c :: s.ongoing := rfl
  have henter : Step listeners _ _ := Step.enter here hp
  rw [hleft] at henter
  exact .head (Step.call s c) (.head henter (leads_finishing hrest [] s.ongoing _ rfl))

/-- So do any number of them in turn. -/
theorem leads_in_turn (listeners : Nat) (s : Usage K V) (calls : List (Call K V)) :
    ∃ s', Leads listeners s s' ∧ s'.history = s.history ++ s.cache.visitsOf calls ∧
      s'.ongoing = s.ongoing := by
  induction calls generalizing s with
  | nil => exact ⟨s, .refl, (List.append_nil _).symm, rfl⟩
  | cons call calls ih =>
      obtain ⟨s', hl, hh, ho⟩ := ih _
      exact ⟨s', (leads_alone listeners s call).trans hl, by rw [hh]; simp [LocalCache.visitsOf], ho⟩

/-- What has happened since leads from the cache as it was to the cache as it is. -/
theorem Leads.chronicle {listeners : Nat} {s s' : Usage K V} (h : Leads listeners s s') :
    ∃ since, s'.history = s.history ++ since ∧ Chronicle s.cache since s'.cache := by
  induction h with
  | refl => exact ⟨[], (List.append_nil _).symm, .nil⟩
  | @tail m _ _ hs ih =>
      obtain ⟨since, hh, hc⟩ := ih
      cases hs with
      | @enter c β change next before after here program =>
          obtain ⟨β', change', next', hp, hv⟩ := LocalCache.program_eq listeners c
          rw [hp] at program
          cases program
          refine ⟨since ++ [⟨c, m.cache⟩], ?_, ?_⟩
          · rw [← List.append_assoc, ← hh]
          · rw [(hv m.cache).1]
            exact Chronicle.snoc ⟨c, m.cache⟩ hc
      | call | log | notify | answer => exact ⟨since, hh, hc⟩

/-- **In every reachable state the past accounts for the present.** -/
theorem Reachable.sound {listeners : Nat} {limit : EntryLimit} {s : Usage K V}
    (h : Reachable listeners limit s) : s.Sound listeners limit := by
  induction h with
  | refl => exact sound_start listeners limit
  | tail _ hs ih => exact sound_step ih hs

theorem history_perm_step {listeners : Nat} {s s' : Usage K V} (hs : Step listeners s s')
    (h : s.history.Perm (s.ongoing.filterMap Ongoing.visit? ++ s.answered.map Sigma.fst)) :
    s'.history.Perm (s'.ongoing.filterMap Ongoing.visit? ++ s'.answered.map Sigma.fst) := by
  cases hs with
  | call c => exact h
  | @enter c β change next before after here program =>
      rw [here, List.filterMap_append, List.filterMap_cons] at h
      rw [List.filterMap_append, List.filterMap_cons]
      -- the new visit stands at the end of the history, and among those in progress
      refine (h.append_right _).trans ?_
      simp only [Ongoing.visit?, List.append_assoc, List.cons_append]
      refine List.Perm.append_left _ ?_
      rw [← List.append_assoc]
      exact List.perm_append_singleton _ _
  | log here | notify here =>
      rw [here, List.filterMap_append, List.filterMap_cons] at h
      rw [List.filterMap_append, List.filterMap_cons]
      exact h
  | @answer v a before after here =>
      rw [here, List.filterMap_append, List.filterMap_cons] at h
      rw [List.filterMap_append, List.map_append]
      refine h.trans ?_
      simp only [Ongoing.visit?, List.append_assoc, List.cons_append]
      refine List.Perm.append_left _ ?_
      rw [← List.append_assoc]
      exact (List.perm_append_singleton _ _).symm

/-- Every visit belongs to one operation, which is still in progress or has been answered. -/
theorem Reachable.history_perm {listeners : Nat} {limit : EntryLimit} {s : Usage K V}
    (h : Reachable listeners limit s) :
    s.history.Perm (s.ongoing.filterMap Ongoing.visit? ++ s.answered.map Sigma.fst) := by
  induction h with
  | refl => exact .refl _
  | tail _ hs ih => exact history_perm_step hs ih

end Usage

end GenerationalCache
