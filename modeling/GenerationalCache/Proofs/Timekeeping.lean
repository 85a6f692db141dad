import GenerationalCache.Builder
import GenerationalCache.Proofs.Usage
import GenerationalCache.Timing.Scheduler

/-!
# A local cache in use, on time

The scheduler is one more user of the cache. It waits for its deadline, and then its tick calls the
same operation that any client may call, which goes through its critical section and the calls of
listeners while the clients go on. Only when that operation has ended is the next deadline set.

So to the cache in use there are added a clock that never goes back, the scheduler, and the
operation of the tick, kept apart from those of the clients so that it is known when it ends.
Critical sections are written down with their times. However long a tick takes, and whenever the
scheduler is woken, its rotations are at least a period apart: the next deadline is a full period
after the end of the tick, and the rotation was before that.
-/

namespace GenerationalCache

variable {K V : Type} [Ord K]

/-! ## More operations in progress -/

namespace Usage

variable {listeners : Nat} {limit : EntryLimit} {u u' : Usage K V}

/-- What some operations do they also do beside others. -/
theorem Step.beside (hs : Step listeners u u') (others : List (Ongoing K V)) :
    Step listeners { u with ongoing := u.ongoing ++ others }
      { u' with ongoing := u'.ongoing ++ others } := by
  have beside : ∀ {before after : List (Ongoing K V)} {o : Ongoing K V},
      u.ongoing = before ++ o :: after →
        u.ongoing ++ others = before ++ o :: (after ++ others) := by
    intro before after o here
    rw [here, List.append_assoc, List.cons_append]
  cases hs with
  | call c => exact Step.call _ c
  | enter here program =>
      have hstep : Step listeners { u with ongoing := u.ongoing ++ others } _ :=
        Step.enter (beside here) program
      rw [← List.cons_append, ← List.append_assoc] at hstep
      exact hstep
  | log here =>
      have hstep : Step listeners { u with ongoing := u.ongoing ++ others } _ :=
        Step.log (beside here)
      rw [← List.cons_append, ← List.append_assoc] at hstep
      exact hstep
  | notify here =>
      have hstep : Step listeners { u with ongoing := u.ongoing ++ others } _ :=
        Step.notify (beside here)
      rw [← List.cons_append, ← List.append_assoc] at hstep
      exact hstep
  | answer here =>
      have hstep : Step listeners { u with ongoing := u.ongoing ++ others } _ :=
        Step.answer (beside here)
      rw [← List.append_assoc] at hstep
      exact hstep

/-- The order in which operations are listed means nothing. -/
theorem Sound.reorder (h : u.Sound listeners limit) {os : List (Ongoing K V)}
    (hos : u.ongoing.Perm os) : ({ u with ongoing := os } : Usage K V).Sound listeners limit where
  chronicle := h.chronicle
  ongoing o ho := h.ongoing o (hos.symm.subset ho)
  answered := h.answered
  calls := h.calls.trans ((hos.flatMap_right _).append_right _)

/-- An operation that has done nothing yet may as well not be there. -/
theorem Sound.of_waiting {os : List (Ongoing K V)} {c : Call K V}
    (h : ({ u with ongoing := .waiting c :: os } : Usage K V).Sound listeners limit) :
    ({ u with ongoing := os } : Usage K V).Sound listeners limit where
  chronicle := h.chronicle
  ongoing o ho := h.ongoing o (List.mem_cons_of_mem _ ho)
  answered := h.answered
  calls := h.calls

/-- An operation that is alone runs its critical section if it is still to come, and then only goes
on and ends. -/
theorem Step.of_single {o : Ongoing K V} {rest : Option (Ongoing K V)}
    (hs : Step listeners { u with ongoing := [o] } { u' with ongoing := rest.toList }) :
    (∃ c next, o = .waiting c ∧ rest = some (.finishing ⟨c, u.cache⟩ next) ∧
      u'.history = u.history ++ [⟨c, u.cache⟩]) ∨
    (∃ v r, o = .finishing v r ∧ u'.history = u.history ∧
      (rest = none ∨ ∃ r', rest = some (.finishing v r'))) := by
  have alone : ∀ {before after : List (Ongoing K V)} {x : Ongoing K V},
      [o] = before ++ x :: after → before = [] ∧ o = x ∧ after = [] := by
    intro before after x h
    cases before with
    | nil =>
        obtain ⟨rfl, rfl⟩ := List.cons.inj h
        exact ⟨rfl, rfl, rfl⟩
    | cons y before => simp at h
  have ended : ∀ {x : Ongoing K V}, [x] = rest.toList → rest = some x := by
    intro x h
    cases rest with
    | none => cases h
    | some y =>
        cases h
        rfl
  generalize hafter : ({ u' with ongoing := rest.toList } : Usage K V) = a at hs
  have hongoing : rest.toList = a.ongoing := by rw [← hafter]
  have hhistory : u'.history = a.history := by rw [← hafter]
  cases hs with
  | call c =>
      -- it cannot begin another one, since that would be there besides
      cases rest <;> cases hongoing
  | @enter c β change next before after here program =>
      obtain ⟨rfl, rfl, rfl⟩ := alone here
      exact .inl ⟨c, _, rfl, ended hongoing.symm, hhistory⟩
  | @log v e next before after here =>
      obtain ⟨rfl, rfl, rfl⟩ := alone here
      exact .inr ⟨v, _, rfl, hhistory, .inr ⟨_, ended hongoing.symm⟩⟩
  | @notify v d next before after here =>
      obtain ⟨rfl, rfl, rfl⟩ := alone here
      exact .inr ⟨v, _, rfl, hhistory, .inr ⟨_, ended hongoing.symm⟩⟩
  | @answer v a before after here =>
      obtain ⟨rfl, rfl, rfl⟩ := alone here
      exact .inr ⟨v, _, rfl, hhistory, .inl (Option.toList_eq_nil_iff.mp hongoing)⟩

end Usage

/-! ## The scheduler, signal by signal -/

namespace Scheduler

/-- What the end of a wait does. -/
inductive Woken (sch : Scheduler) (timedOut : Bool) : Prop where
  /-- Nothing, since the scheduler was not waiting. -/
  | busy (phase : sch.phase ≠ .waiting) (starts : ¬ sch.startsTick (.woken timedOut))
      (step : sch.step (.woken timedOut) = sch)
  /-- The scheduler was asked to stop, and ends. -/
  | ends (phase : sch.phase = .waiting) (stop : sch.stopRequested)
      (starts : ¬ sch.startsTick (.woken timedOut))
      (step : sch.step (.woken timedOut) = { sch with phase := .ended })
  /-- A tick starts. -/
  | starts (phase : sch.phase = .waiting) (stop : ¬ sch.stopRequested) (due : timedOut)
      (starts : sch.startsTick (.woken timedOut))
      (step : sch.step (.woken timedOut) = { sch with phase := .ticking })
  /-- The scheduler waits again, for the same deadline. -/
  | again (phase : sch.phase = .waiting) (stop : ¬ sch.stopRequested) (due : ¬ timedOut)
      (starts : ¬ sch.startsTick (.woken timedOut)) (step : sch.step (.woken timedOut) = sch)

theorem woken (sch : Scheduler) (timedOut : Bool) : sch.Woken timedOut := by
  cases hphase : sch.phase with
  | waiting =>
      by_cases hstop : sch.stopRequested
      · exact .ends hphase hstop (by simp [startsTick, step, hphase, hstop])
          (by simp [step, hphase, hstop])
      · by_cases hdue : timedOut
        · exact .starts hphase hstop hdue (by simp [startsTick, step, hphase, hstop, hdue])
            (by simp [step, hphase, hstop, hdue])
        · exact .again hphase hstop hdue (by simp [startsTick, step, hphase, hstop, hdue])
            (by simp [step, hphase, hstop, hdue])
  | ticking | ended =>
      exact .busy (by simp [hphase]) (by simp [startsTick, step, hphase]) (by simp [step, hphase])

theorem period_step (sch : Scheduler) (signal : Signal) :
    (sch.step signal).period = sch.period := by
  cases signal with
  | woken timedOut =>
      cases sch.woken timedOut with
      | busy _ _ step | ends _ _ _ step | starts _ _ _ _ step | again _ _ _ _ step => rw [step]
  | tickEnded now alive =>
      cases hphase : sch.phase with
      | ticking => cases alive <;> simp [step, hphase]
      | waiting | ended => simp [step, hphase]
  | stop => rfl

end Scheduler

/-! ## The machine -/

/-- A critical section, the time at which it ran, and whether a tick of the scheduler made it. -/
structure Dated (K V : Type) [Ord K] where
  /-- The critical section. -/
  visit : Visit K V
  /-- When it ran. -/
  time : Nat
  /-- Whether a tick made it. -/
  scheduled : Bool

/-- A local cache in use, with a clock and its scheduler. -/
structure TimedUsage (K V : Type) [Ord K] : Type 1 where
  /-- The cache and its clients. -/
  usage : Usage K V
  /-- The operation of the scheduler's tick, while it is in progress. -/
  tick : Option (Ongoing K V) := none
  /-- The scheduler, if there is one. -/
  scheduler : Option Scheduler
  /-- The time. -/
  now : Nat
  /-- The critical sections that have run. -/
  dated : List (Dated K V) := []

namespace TimedUsage

/-- A new cache, with the scheduler for which it was built. -/
def start (b : Builder) (began : Nat) : TimedUsage K V where
  usage := { cache := b.build }
  scheduler := b.schedulerPeriod?.map fun period => .start period began
  now := began

/-- The cache in use by everybody, the scheduler included. -/
def whole (s : TimedUsage K V) : Usage K V :=
  { s.usage with ongoing := s.usage.ongoing ++ s.tick.toList }

/-- Critical sections that run now. -/
def date (s : TimedUsage K V) (scheduled : Bool) (new : List (Visit K V)) : List (Dated K V) :=
  s.dated ++ new.map fun visit => ⟨visit, s.now, scheduled⟩

/-- One step of a cache in use that has this many listeners. -/
inductive Step (listeners : Nat) : TimedUsage K V → TimedUsage K V → Prop where
  /-- Time passes. -/
  | pass (s : TimedUsage K V) {later : Nat} (forward : s.now ≤ later) :
      Step listeners s { s with now := later }
  /-- A client, or a listener, takes a step. -/
  | act {s : TimedUsage K V} {u : Usage K V} {new : List (Visit K V)}
      (step : Usage.Step listeners s.usage u) (since : u.history = s.usage.history ++ new) :
      Step listeners s { s with usage := u, dated := s.date false new }
  /-- The wait of the scheduler ends, not with the deadline before that has come. If this makes a
  tick start, the tick calls its operation. -/
  | wake {s : TimedUsage K V} {sch : Scheduler} (timedOut : Bool) (here : s.scheduler = some sch)
      (due : timedOut = true → sch.deadline ≤ s.now) :
      Step listeners s { s with
        scheduler := some (sch.step (.woken timedOut))
        tick := if sch.startsTick (.woken timedOut) then some (.waiting .evictStale) else s.tick }
  /-- The operation of the tick takes a step. -/
  | tick {s : TimedUsage K V} {u : Usage K V} {o : Ongoing K V} {rest : Option (Ongoing K V)}
      {new : List (Visit K V)} (here : s.tick = some o)
      (step : Usage.Step listeners { s.usage with ongoing := [o] }
        { u with ongoing := rest.toList })
      (since : u.history = s.usage.history ++ new) :
      Step listeners s { s with
        usage := { u with ongoing := s.usage.ongoing }
        tick := rest
        dated := s.date true new }
  /-- The tick ends, its operation having ended. -/
  | finish {s : TimedUsage K V} {sch : Scheduler} (here : s.scheduler = some sch)
      (ticking : sch.phase = .ticking) (idle : s.tick = none) :
      Step listeners s { s with scheduler := some (sch.step (.tickEnded s.now true)) }
  /-- The tick finds that nobody has the cache any more, and ends without having done anything. -/
  | vanish {s : TimedUsage K V} {sch : Scheduler} (here : s.scheduler = some sch)
      (begun : s.tick = some (.waiting .evictStale)) :
      Step listeners s { s with
        scheduler := some (sch.step (.tickEnded s.now false))
        tick := none }
  /-- Somebody asks the scheduler to stop. -/
  | stop {s : TimedUsage K V} {sch : Scheduler} (here : s.scheduler = some sch) :
      Step listeners s { s with scheduler := some (sch.step .stop) }

/-- One state may follow another, after any number of steps. -/
def Leads (listeners : Nat) : TimedUsage K V → TimedUsage K V → Prop :=
  Relation.ReflTransGen (Step listeners)

/-- A state of some run on a cache that was built at this time. -/
def Reachable (b : Builder) (began : Nat) (s : TimedUsage K V) : Prop :=
  Leads b.listeners (start b began) s

/-- The critical sections of the scheduler's ticks. -/
def ticks (s : TimedUsage K V) : List (Dated K V) := s.dated.filter Dated.scheduled

/-! ## Ticks are a period apart -/

/-- How far the scheduler has got, and which ticks may have been before. -/
inductive Stage (tick : Option (Ongoing K V)) (ticks : List (Dated K V)) (now : Nat)
    (sch : Scheduler) : Prop where
  /-- Its deadline is a period after each tick. -/
  | waiting (phase : sch.phase = .waiting) (idle : tick = none)
      (paced : ∀ d ∈ ticks, d.time + sch.period ≤ sch.deadline)
  /-- The deadline has come, and the rotation is still to come. -/
  | begun (phase : sch.phase = .ticking) (here : tick = some (.waiting .evictStale))
      (paced : ∀ d ∈ ticks, d.time + sch.period ≤ now)
  /-- The rotation is over, the operation is not. -/
  | running {v : Visit K V} {rest : Program (LocalCache K V) K V v.call.Answer}
      (phase : sch.phase = .ticking) (here : tick = some (.finishing v rest))
  /-- The operation is over, the tick is not. -/
  | spent (phase : sch.phase = .ticking) (idle : tick = none)
  /-- There will be no more ticks. -/
  | ended (phase : sch.phase = .ended) (idle : tick = none)

/-- What holds at every moment of every run of a cache that was built at this time. -/
structure Sound (b : Builder) (began : Nat) (s : TimedUsage K V) : Prop where
  /-- With the scheduler counted as one more client, the cache is in order. -/
  whole : s.whole.Sound b.listeners (.ofSize b.entryLimit)
  /-- All critical sections are dated. -/
  visits : s.dated.map Dated.visit = s.usage.history
  /-- They are in the order of time. -/
  ordered : s.dated.Pairwise fun d e => d.time ≤ e.time
  /-- They ran after the beginning, and not later than now. -/
  past : ∀ d ∈ s.dated, began ≤ d.time ∧ d.time ≤ s.now
  /-- The clock has not gone back behind the beginning. -/
  began_le : began ≤ s.now
  /-- Ticks do nothing but rotate. -/
  sweeps : ∀ d ∈ s.ticks, d.visit.call = .evictStale
  /-- The period is the one for which the cache was built. -/
  period : s.scheduler.map Scheduler.period = b.schedulerPeriod?
  /-- Without a scheduler there are no ticks. -/
  unscheduled : s.scheduler = none → s.tick = none ∧ s.ticks = []
  /-- From one rotation of the scheduler to the next there is at least a period. -/
  spaced : ∀ {sch}, s.scheduler = some sch →
    s.ticks.Pairwise fun d e => d.time + sch.period ≤ e.time
  /-- The scheduler and its operation are at one of their places. -/
  stage : ∀ {sch}, s.scheduler = some sch → Stage s.tick s.ticks s.now sch

variable {b : Builder} {began : Nat} {s s' : TimedUsage K V}

theorem sound_start (b : Builder) (began : Nat) :
    (start b began : TimedUsage K V).Sound b began where
  whole := Usage.sound_start b.listeners _
  visits := rfl
  ordered := .nil
  past := by simp [start]
  began_le := Nat.le_refl began
  sweeps := by simp [ticks, start]
  period := by simp [start, Function.comp_def, Scheduler.start]
  unscheduled _ := ⟨rfl, rfl⟩
  spaced _ := .nil
  stage h := by
    obtain ⟨period, -, rfl⟩ := Option.map_eq_some_iff.mp h
    exact .waiting rfl rfl (by simp [ticks, start])

/-- Whatever runs now comes after everything else. -/
theorem Sound.date (h : s.Sound b began) (scheduled : Bool) (new : List (Visit K V)) :
    (s.date scheduled new).map Dated.visit = s.usage.history ++ new ∧
      ((s.date scheduled new).Pairwise fun d e => d.time ≤ e.time) ∧
      ∀ d ∈ s.date scheduled new, began ≤ d.time ∧ d.time ≤ s.now := by
  refine ⟨?_, ?_, ?_⟩
  · simp [TimedUsage.date, h.visits, Function.comp_def]
  · refine List.pairwise_append.mpr ⟨h.ordered, ?_, ?_⟩
    · exact List.pairwise_map.mpr (List.pairwise_of_forall fun _ _ => Nat.le_refl s.now)
    · intro d hd e he
      obtain ⟨v, -, rfl⟩ := List.mem_map.mp he
      exact (h.past d hd).2
  · intro d hd
    rcases List.mem_append.mp hd with hd | hd
    · exact h.past d hd
    · obtain ⟨v, -, rfl⟩ := List.mem_map.mp hd
      exact ⟨h.began_le, Nat.le_refl s.now⟩

/-- What clients do is no tick. -/
theorem filter_date_false (s : TimedUsage K V) (new : List (Visit K V)) :
    (s.date false new).filter Dated.scheduled = s.ticks := by
  simp [date, ticks, List.filter_append, List.filter_eq_nil_iff]

theorem filter_date_true (s : TimedUsage K V) (new : List (Visit K V)) :
    (s.date true new).filter Dated.scheduled =
      s.ticks ++ new.map fun visit => ⟨visit, s.now, true⟩ := by
  rw [date, ticks, List.filter_append]
  congr 1
  exact List.filter_eq_self.mpr fun d hd => by
    obtain ⟨v, -, rfl⟩ := List.mem_map.mp hd
    rfl

/-- The cache in use by everybody stays in account with its past. -/
theorem whole_step (h : s.Sound b began) (hs : Step b.listeners s s') :
    s'.whole.Sound b.listeners (.ofSize b.entryLimit) := by
  cases hs with
  | pass | finish | stop => exact h.whole
  | act step _ => exact Usage.sound_step h.whole (step.beside s.tick.toList)
  | @wake sch timedOut here due =>
      by_cases hstarts : sch.startsTick (.woken timedOut)
      · -- no other operation of the scheduler is in progress
        have hidle : s.tick = none := by
          cases h.stage here with
          | waiting _ idle | spent _ idle | ended _ idle => exact idle
          | begun phase | running phase => simp [Scheduler.startsTick, phase] at hstarts
        have hcall := Usage.sound_step h.whole (.call s.whole .evictStale)
        have hwhole := hcall.reorder (List.perm_append_singleton _ _).symm
        simpa [whole, hidle, hstarts] using hwhole
      · simpa [whole, hstarts] using h.whole
  | @tick u o rest new here step since =>
      have hperm : s.whole.ongoing.Perm ([o] ++ s.usage.ongoing) := by
        rw [whole, here]
        exact List.perm_append_comm
      have hstep := Usage.sound_step (h.whole.reorder hperm) (step.beside s.usage.ongoing)
      exact hstep.reorder List.perm_append_comm
  | @vanish sch here begun =>
      have hperm : s.whole.ongoing.Perm (.waiting .evictStale :: s.usage.ongoing) := by
        rw [whole, begun]
        exact List.perm_append_singleton _ _
      have hwhole := (h.whole.reorder hperm).of_waiting
      simpa [whole] using hwhole

/-- A later time, and a request to stop, make no difference. -/
theorem Stage.mono {tick : Option (Ongoing K V)} {ticks : List (Dated K V)} {now later : Nat}
    {sch : Scheduler} (h : Stage tick ticks now sch) (forward : now ≤ later) (stop : Bool) :
    Stage tick ticks later { sch with stopRequested := stop } := by
  cases h with
  | waiting phase idle paced => exact .waiting phase idle paced
  | begun phase here paced =>
      exact .begun phase here fun d hd => Nat.le_trans (paced d hd) forward
  | running phase here => exact .running phase here
  | spent phase idle => exact .spent phase idle
  | ended phase idle => exact .ended phase idle

/-- A wait that ends leaves the scheduler where it was, ends it, or starts a tick that is due. -/
theorem Stage.woken {tick : Option (Ongoing K V)} {ticks : List (Dated K V)} {now : Nat}
    {sch : Scheduler} (h : Stage tick ticks now sch) {timedOut : Bool}
    (due : timedOut = true → sch.deadline ≤ now) :
    Stage (if sch.startsTick (.woken timedOut) then some (.waiting .evictStale) else tick) ticks now
      (sch.step (.woken timedOut)) := by
  cases sch.woken timedOut with
  | busy _ hstarts step | again _ _ _ hstarts step =>
      rw [if_neg hstarts, step]
      exact h
  | ends phase _ hstarts step =>
      rw [if_neg hstarts, step]
      cases h with
      | waiting _ idle _ | spent _ idle | ended _ idle => exact .ended rfl idle
      | begun hp | running hp => simp [hp] at phase
  | starts phase _ hdue hstarts step =>
      rw [if_pos hstarts, step]
      cases h with
      | waiting _ _ paced =>
          exact .begun rfl rfl fun d hd => Nat.le_trans (paced d hd) (due hdue)
      | begun hp | running hp | spent hp | ended hp => simp [hp] at phase

/-- A signal to the scheduler changes nothing but the scheduler and its tick. -/
theorem Sound.signal (h : s.Sound b began) {sch : Scheduler} (here : s.scheduler = some sch)
    (signal : Scheduler.Signal) {tick : Option (Ongoing K V)}
    (whole : ({ s with scheduler := some (sch.step signal), tick } : TimedUsage K V).whole.Sound
      b.listeners (.ofSize b.entryLimit))
    (stage : Stage tick s.ticks s.now (sch.step signal)) :
    ({ s with scheduler := some (sch.step signal), tick } : TimedUsage K V).Sound b began := by
  refine { h with whole, period := ?_, unscheduled := nofun, spaced := ?_, stage := ?_ }
  · rw [← h.period, here]
    exact congrArg some (sch.period_step signal)
  · rintro _ ⟨⟩
    rw [sch.period_step]
    exact h.spaced here
  · rintro _ ⟨⟩
    exact stage

/-- **A tick that rotates does so at least a period after every other one.** -/
theorem Stage.tick {o : Option (Ongoing K V)} {x : Ongoing K V} {rest : Option (Ongoing K V)}
    {ticks : List (Dated K V)} {now : Nat} {sch : Scheduler} (h : Stage o ticks now sch)
    (here : o = some x) {u u' : Usage K V} {listeners : Nat}
    (step : Usage.Step listeners { u with ongoing := [x] } { u' with ongoing := rest.toList })
    {new : List (Visit K V)} (since : u'.history = u.history ++ new)
    (spaced : ticks.Pairwise fun d e => d.time + sch.period ≤ e.time) :
    let ticks' := ticks ++ new.map fun visit => ⟨visit, now, true⟩
    (∀ v ∈ new, v.call = .evictStale) ∧
      (ticks'.Pairwise fun d e => d.time + sch.period ≤ e.time) ∧ Stage rest ticks' now sch := by
  intro ticks'
  have same : u'.history = u.history → new = [] := fun heq => by
    rw [since] at heq
    simpa using heq
  cases h with
  | waiting _ idle | spent _ idle | ended _ idle => simp [idle] at here
  | begun phase begun paced =>
      rw [begun] at here
      cases here
      rcases step.of_single with ⟨c, next, hc, rfl, hh⟩ | ⟨v, r, hv, -⟩
      · cases hc
        rw [since] at hh
        obtain rfl := List.append_cancel_left hh
        refine ⟨by simp, List.pairwise_append.mpr ⟨spaced, by simp, ?_⟩, .running phase rfl⟩
        intro d hd e he
        obtain rfl := List.mem_singleton.mp he
        exact paced d hd
      · cases hv
  | running phase running =>
      rw [running] at here
      cases here
      rcases step.of_single with ⟨c, next, hc, -⟩ | ⟨v, r, hv, hh, hrest⟩
      · cases hc
      · obtain rfl := same hh
        refine ⟨by simp, by simpa [ticks'] using spaced, ?_⟩
        rcases hrest with rfl | ⟨r', rfl⟩
        · exact .spent phase rfl
        · exact .running phase rfl

/-- Critical sections that run now keep everything in order, if the scheduler allows for those among
them that are its own. -/
theorem Sound.enter (h : s.Sound b began) {scheduled : Bool} {new : List (Visit K V)}
    {u : Usage K V} {tick : Option (Ongoing K V)} {ticks : List (Dated K V)}
    (hticks : (s.date scheduled new).filter Dated.scheduled = ticks)
    (since : u.history = s.usage.history ++ new)
    (whole : ({ s with usage := u, tick, dated := s.date scheduled new } :
      TimedUsage K V).whole.Sound b.listeners (.ofSize b.entryLimit))
    (sweeps : ∀ d ∈ ticks, d.visit.call = .evictStale)
    (unscheduled : s.scheduler = none → tick = none ∧ ticks = [])
    (spaced : ∀ {sch}, s.scheduler = some sch →
      ticks.Pairwise fun d e => d.time + sch.period ≤ e.time)
    (stage : ∀ {sch}, s.scheduler = some sch → Stage tick ticks s.now sch) :
    ({ s with usage := u, tick, dated := s.date scheduled new } : TimedUsage K V).Sound b began := by
  obtain ⟨hvisits, hordered, hpast⟩ := h.date scheduled new
  subst hticks
  exact { whole, ordered := hordered, past := hpast, began_le := h.began_le, sweeps,
          period := h.period, unscheduled, spaced, stage, visits := hvisits.trans since.symm }

/-- **Every step keeps the ticks at their distance.** -/
theorem sound_step (h : s.Sound b began) (hs : Step b.listeners s s') : s'.Sound b began := by
  have hwhole := whole_step h hs
  cases hs with
  | @pass later forward =>
      refine { h with whole := hwhole, past := ?_, began_le := ?_, stage := ?_ }
      · exact fun d hd => ⟨(h.past d hd).1, Nat.le_trans (h.past d hd).2 forward⟩
      · exact Nat.le_trans h.began_le forward
      · exact fun here => (h.stage here).mono forward _
  | @act u new step since =>
      exact h.enter (s.filter_date_false new) since hwhole h.sweeps h.unscheduled h.spaced h.stage
  | @wake sch timedOut here due => exact h.signal here _ hwhole ((h.stage here).woken due)
  | @tick u o rest new here step since =>
      obtain ⟨sch, hsch⟩ : ∃ sch, s.scheduler = some sch := by
        cases hsch : s.scheduler with
        | none => simp [(h.unscheduled hsch).1] at here
        | some sch => exact ⟨sch, rfl⟩
      obtain ⟨hsweeps, hspaced, hstage⟩ := (h.stage hsch).tick here step since (h.spaced hsch)
      have only : ∀ {sch'}, s.scheduler = some sch' → sch = sch' := fun hsch' =>
        Option.some.inj (hsch.symm.trans hsch')
      refine h.enter (s.filter_date_true new) since hwhole ?_ ?_ ?_ ?_
      · intro d hd
        rcases List.mem_append.mp hd with hd | hd
        · exact h.sweeps d hd
        · obtain ⟨v, hv, rfl⟩ := List.mem_map.mp hd
          exact hsweeps v hv
      · intro hnone
        rw [hnone] at hsch
        cases hsch
      · intro sch' hsch'
        rw [← only hsch']
        exact hspaced
      · intro sch' hsch'
        rw [← only hsch']
        exact hstage
  | @finish sch here ticking idle =>
      refine h.signal here _ hwhole ?_
      have hstep : sch.step (.tickEnded s.now true) =
          { sch with phase := .waiting, deadline := s.now + sch.period } := by
        simp [Scheduler.step, ticking]
      rw [hstep]
      refine .waiting rfl idle fun d hd => ?_
      exact Nat.add_le_add_right (h.past d (List.mem_filter.mp hd).1).2 sch.period
  | @vanish sch here begun =>
      refine h.signal here _ hwhole ?_
      have hticking : sch.phase = .ticking := by
        cases h.stage here with
        | begun phase | running phase => exact phase
        | waiting _ idle | spent _ idle | ended _ idle => simp [idle] at begun
      refine .ended ?_ rfl
      simp [Scheduler.step, hticking]
  | @stop sch here =>
      exact h.signal here _ hwhole ((h.stage here).mono (Nat.le_refl s.now) true)

/-- **In every reachable state the ticks have kept their distance.** -/
theorem Reachable.sound (h : Reachable b began s) : s.Sound b began := by
  induction h with
  | refl => exact sound_start b began
  | tail _ hs ih => exact sound_step ih hs

/-! ## Running on -/

/-- What the clients do by themselves they also do on time. -/
theorem leads_act {listeners : Nat} (s : TimedUsage K V) {u : Usage K V}
    (h : Usage.Leads listeners s.usage u) :
    ∃ new, u.history = s.usage.history ++ new ∧
      Leads listeners s { s with usage := u, dated := s.date false new } := by
  induction h with
  | refl =>
      refine ⟨[], (List.append_nil _).symm, ?_⟩
      rw [date, List.map_nil, List.append_nil]
      exact .refl
  | tail _ hs ih =>
      obtain ⟨new, hh, hl⟩ := ih
      obtain ⟨one, hone, -⟩ := Usage.Leads.chronicle (.single hs)
      refine ⟨new ++ one, ?_, ?_⟩
      · rw [hone, hh, List.append_assoc]
      · rw [date, List.map_append, ← List.append_assoc]
        exact hl.tail (.act hs hone)

/-- The operation of a tick goes on to its end. -/
theorem leads_finishing {listeners : Nat} {v : Visit K V}
    {rest : Program (LocalCache K V) K V v.call.Answer} {ds : List (Delivery V)}
    {a : v.call.Answer} (hrest : rest.Finishing ds a) (s : TimedUsage K V)
    (here : s.tick = some (.finishing v rest)) :
    Leads listeners s { s with
      usage := { s.usage with
        told := s.usage.told ++ ds.map (v, ·)
        answered := s.usage.answered ++ [⟨v, a⟩] }
      tick := none } := by
  have undated : ∀ s : TimedUsage K V, s.date true [] = s.dated := fun s => by simp [date]
  have alone : ∀ o : Ongoing K V, [o] = [] ++ o :: [] := fun _ => rfl
  induction hrest generalizing s with
  | done a =>
      have hone : Usage.Step listeners { s.usage with ongoing := [.finishing v (.done a)] } _ :=
        .answer (alone _)
      have hstep : Step listeners s { s with
          usage := { s.usage with answered := s.usage.answered ++ [⟨v, a⟩] }
          tick := none
          dated := s.date true [] } :=
        .tick here (u := { s.usage with answered := s.usage.answered ++ [⟨v, a⟩] })
          hone (List.append_nil _).symm
      rw [undated] at hstep
      rw [List.map_nil, List.append_nil]
      exact .single hstep
  | @log e next _ _ hrest ih =>
      have hone : Usage.Step listeners
          { s.usage with ongoing := [.finishing v (.step (.log e) next)] } _ := .log (alone _)
      have hstep : Step listeners s { s with
          tick := some (.finishing v (next ()))
          dated := s.date true [] } :=
        .tick here (u := s.usage) hone (List.append_nil _).symm
      rw [undated] at hstep
      exact .head hstep (ih _ rfl)
  | @notify d next ds _ hrest ih =>
      have hone : Usage.Step listeners
          { s.usage with ongoing := [.finishing v (.step (.notify d) next)] } _ := .notify (alone _)
      have hstep : Step listeners s { s with
          usage := { s.usage with told := s.usage.told ++ [(v, d)] }
          tick := some (.finishing v (next ()))
          dated := s.date true [] } :=
        .tick here (u := { s.usage with told := s.usage.told ++ [(v, d)] }) hone
          (List.append_nil _).symm
      rw [undated] at hstep
      rw [List.map_cons, List.append_cons]
      exact .head hstep (ih _ rfl)

/-- **A tick that is due and not disturbed runs to its end.** It rotates now, makes the calls that
this requires, and the next one is due a period later. -/
theorem leads_tick {listeners : Nat} (s : TimedUsage K V) {sch : Scheduler}
    (here : s.scheduler = some sch) (waits : sch.phase = .waiting) (stays : ¬ sch.stopRequested)
    (due : sch.deadline ≤ s.now) :
    Leads listeners s { s with
      usage := { s.usage with
        cache := (Visit.mk .evictStale s.usage.cache).left
        history := s.usage.history ++ [⟨.evictStale, s.usage.cache⟩]
        told := s.usage.told ++ Visit.calls listeners ⟨.evictStale, s.usage.cache⟩
        answered := s.usage.answered ++ [⟨⟨.evictStale, s.usage.cache⟩, ()⟩] }
      tick := none
      scheduler := some { sch with deadline := s.now + sch.period }
      dated := s.date true [⟨.evictStale, s.usage.cache⟩] } := by
  let v : Visit K V := ⟨.evictStale, s.usage.cache⟩
  obtain ⟨β, change, next, hp, hv⟩ := LocalCache.program_eq (K := K) (V := V) listeners .evictStale
  obtain ⟨hleft, hrest⟩ := hv s.usage.cache
  let ticking : Scheduler := { sch with phase := .ticking }
  have hstep : sch.step (.woken true) = ticking := by
    simp [Scheduler.step, waits, stays, ticking]
  have hstarts : sch.startsTick (.woken true) = true := by
    rw [Scheduler.startsTick, hstep, waits]
    rfl
  have hwake : Step listeners s _ := .wake true here fun _ => due
  rw [hstep, hstarts] at hwake
  -- the critical section of the tick is entered at once
  let s₁ : TimedUsage K V :=
    { s with scheduler := some ticking, tick := some (.waiting .evictStale) }
  let u : Usage K V := { s.usage with
    cache := (change s.usage.cache).2
    history := s.usage.history ++ [v] }
  have halone : ([.waiting .evictStale] : List (Ongoing K V)) = [] ++ .waiting .evictStale :: [] :=
    rfl
  have hone : Usage.Step listeners { s.usage with ongoing := [.waiting .evictStale] } _ :=
    .enter halone hp
  have henter : Step listeners s₁ { s₁ with
      usage := u
      tick := some (.finishing v (next (change s.usage.cache).1))
      dated := s.date true [v] } := .tick rfl (u := u) hone rfl
  refine .head hwake (.head henter (.trans (leads_finishing hrest _ rfl) ?_))
  have hended : ticking.step (.tickEnded s.now true) =
      { sch with deadline := s.now + sch.period } := by
    simp [Scheduler.step, ticking, waits]
  rw [← hended, ← hleft]
  exact .single (.finish rfl rfl rfl)

/-- A scheduler that waits may run any number of ticks, each just when it is due. -/
theorem leads_punctually (listeners n : Nat) (s : TimedUsage K V) {period deadline : Nat}
    (here : s.scheduler = some { period, deadline }) (early : s.now ≤ deadline) :
    ∃ s' new, Leads listeners s s' ∧ s'.now = deadline + period * n ∧
      s'.scheduler = some { period, deadline := deadline + period * (n + 1) } ∧
      s'.dated = s.dated ++ new ∧ (∀ w ∈ new, w.visit.call = .evictStale ∧ w.scheduled) ∧
      new.map Dated.time = (List.range (n + 1)).map fun i => deadline + period * i := by
  have one : ∀ (s : TimedUsage K V) {deadline : Nat}, s.scheduler = some { period, deadline } →
      s.now ≤ deadline → ∃ s', Leads listeners s s' ∧ s'.now = deadline ∧
        s'.scheduler = some { period, deadline := deadline + period } ∧
        s'.dated = s.dated ++ [⟨⟨.evictStale, s.usage.cache⟩, deadline, true⟩] :=
    fun s _ here early =>
      ⟨_, .head (.pass s early) (leads_tick _ here rfl Bool.false_ne_true (Nat.le_refl _)), rfl,
        rfl, rfl⟩
  induction n with
  | zero =>
      obtain ⟨s', hl, hnow, hsch, hdated⟩ := one s here early
      exact ⟨s', _, hl, hnow, by simpa using hsch, hdated, by simp, by simp⟩
  | succ n ih =>
      obtain ⟨s', new, hl, hnow, hsch, hdated, hsweeps, htimes⟩ := ih
      have hearly : s'.now ≤ deadline + period * (n + 1) := by
        rw [hnow]
        exact Nat.add_le_add_left (Nat.mul_le_mul_left period (Nat.le_succ n)) deadline
      obtain ⟨s'', hl', hnow', hsch', hdated'⟩ := one s' hsch hearly
      let last : Dated K V :=
        ⟨⟨.evictStale, s'.usage.cache⟩, deadline + period * (n + 1), true⟩
      refine ⟨s'', new ++ [last], hl.trans hl', hnow', ?_, ?_, ?_, ?_⟩
      · rw [hsch', Nat.add_assoc, ← Nat.mul_succ]
      · rw [hdated', hdated, List.append_assoc]
      · exact List.forall_mem_append.mpr ⟨hsweeps, List.forall_mem_singleton.mpr ⟨rfl, rfl⟩⟩
      · rw [List.map_append, htimes, List.range_succ (n := n + 1), List.map_append]
        rfl

end TimedUsage

end GenerationalCache
