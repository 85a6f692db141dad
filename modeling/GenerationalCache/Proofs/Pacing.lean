import GenerationalCache.Proofs.Timekeeping

/-!
# The pace of the scheduler

The scheduler's thread sleeps until its deadline. It may be woken by a timeout, by a request to
stop, or by nothing at all; a tick may take any time, and may find that the cache is gone; and the
request to stop may come at any moment, also while a tick runs. Here the thread is looked at by
itself: a machine with a clock, which writes down each tick when it starts, and when it ends, what
the tick has returned.

What the invariant says depends on what the thread does. While it waits, all ticks are over, and its
deadline is a period after each of them. While a tick runs, it is the latest one, and the others
were over a period before it started. And a thread that was asked to stop, or has ended, is closed:
no signal makes a tick start, and none opens it again.

The cache in use has such a thread. It runs on the same clock, and whenever the scheduler rotates,
one of the thread's ticks is running.
-/

namespace GenerationalCache

namespace Scheduler

/-! ## What is over for good -/

/-- The scheduler was asked to stop, or has ended. -/
def Closed (sch : Scheduler) : Prop := sch.stopRequested ∨ sch.phase = .ended

variable {sch : Scheduler}

theorem Closed.not_startsTick (h : sch.Closed) (signal : Signal) : ¬ sch.startsTick signal := by
  cases signal with
  | woken timedOut =>
      cases sch.woken timedOut with
      | busy _ starts _ | ends _ _ starts _ | again _ _ _ starts _ => exact starts
      | starts phase goes =>
          rcases h with stop | ended
          · exact absurd stop goes
          · simp [phase] at ended
  | tickEnded now alive =>
      cases hphase : sch.phase <;> cases alive <;> simp [startsTick, step, hphase]
  | stop => simp [startsTick, step]

theorem phase_step_of_ended (h : sch.phase = .ended) (signal : Signal) :
    (sch.step signal).phase = .ended := by
  cases signal <;> simp [step, h]

theorem Closed.step (h : sch.Closed) (signal : Signal) : (sch.step signal).Closed := by
  rcases h with stop | ended
  · cases signal with
    | woken timedOut =>
        cases sch.woken timedOut with
        | busy _ _ step | again _ _ _ _ step =>
            rw [step]
            exact .inl stop
        | ends _ _ _ step =>
            rw [step]
            exact .inr rfl
        | starts _ goes => exact absurd stop goes
    | tickEnded now alive =>
        refine .inl ?_
        cases hphase : sch.phase <;> cases alive <;> simp [Scheduler.step, hphase, stop]
    | stop => exact .inl rfl
  · exact .inr (phase_step_of_ended ended signal)

/-- A wake-up that is no timeout starts no tick, and the thread goes on waiting for the same
deadline. -/
theorem woken_false (sch : Scheduler) :
    ¬ sch.startsTick (.woken false) ∧ (sch.step (.woken false)).deadline = sch.deadline := by
  cases sch.woken false with
  | busy _ starts step | ends _ _ starts step | again _ _ _ starts step =>
      exact ⟨starts, by rw [step]⟩
  | starts _ _ due => exact absurd due Bool.false_ne_true

/-! ## The machine -/

/-- A tick. -/
structure Tick where
  /-- When it started. -/
  start : Nat
  /-- When it ended, and whether the cache was still there, if it has ended. -/
  outcome : Option (Nat × Bool) := none
  deriving DecidableEq, Repr

/-- The thread of a scheduler. -/
structure Thread where
  /-- How far the loop of the thread has got. -/
  scheduler : Scheduler
  /-- The time. -/
  now : Nat
  /-- The ticks that have started, the latest first. -/
  ticks : List Tick := []
  deriving DecidableEq, Repr

namespace Tick

/-- The tick has ended and told the thread to go on, and a period has passed since. -/
def Cleared (period time : Nat) (tick : Tick) : Prop :=
  ∃ e, tick.outcome = some (e, true) ∧ tick.start ≤ e ∧ e + period ≤ time

theorem Cleared.mono {period time later : Nat} {tick : Tick} (h : tick.Cleared period time)
    (forward : time ≤ later) : tick.Cleared period later :=
  h.imp fun _ ⟨outcome, start, past⟩ => ⟨outcome, start, Nat.le_trans past forward⟩

/-- The tick is running at this time. -/
def Spans (tick : Tick) (time : Nat) : Prop :=
  tick.start ≤ time ∧ ∀ e alive, tick.outcome = some (e, alive) → time ≤ e

end Tick

namespace Thread

/-- The thread when it takes its first deadline. -/
def start (period began : Nat) : Thread := { scheduler := .start period began, now := began }

/-- The wait ends. -/
def woken (t : Thread) (timedOut : Bool) : Thread :=
  { t with
    scheduler := t.scheduler.step (.woken timedOut)
    ticks := if t.scheduler.startsTick (.woken timedOut) then ⟨t.now, none⟩ :: t.ticks
      else t.ticks }

/-- The tick that is running ends. -/
def ended (t : Thread) (alive : Bool) : Thread :=
  { t with
    scheduler := t.scheduler.step (.tickEnded t.now alive)
    ticks := t.ticks.modifyHead fun tick => { tick with outcome := some (t.now, alive) } }

/-- Somebody asks the thread to stop. -/
def asked (t : Thread) : Thread := { t with scheduler := t.scheduler.step .stop }

/-- One step of the thread, or of the world around it. -/
inductive Step : Thread → Thread → Prop where
  /-- Time passes. -/
  | pass (t : Thread) (later : Nat) (forward : t.now ≤ later) : Step t { t with now := later }
  /-- The thread wakes up, by a timeout only when its deadline has come. -/
  | wake (t : Thread) (timedOut : Bool)
      (due : timedOut = true → t.scheduler.deadline ≤ t.now) : Step t (t.woken timedOut)
  /-- Its tick ends, after any time. -/
  | finish (t : Thread) (alive : Bool) (ticking : t.scheduler.phase = .ticking) :
      Step t (t.ended alive)
  /-- Somebody asks it to stop. -/
  | stop (t : Thread) : Step t t.asked

/-- One state may follow another, after any number of steps. -/
def Leads : Thread → Thread → Prop := Relation.ReflTransGen Step

/-- A state of some run of a thread that took its first deadline at this time. -/
def Reachable (period began : Nat) (t : Thread) : Prop := Leads (start period began) t

variable {period began : Nat} {t t' : Thread}

/-! ## One tick at a time -/

/-- What the thread does, and how far its ticks have got. -/
inductive Stage (period began : Nat) (t : Thread) : Prop where
  /-- All ticks are over, and the deadline is a period after each of them, and after the first one
  was taken. -/
  | waiting (phase : t.scheduler.phase = .waiting) (first : began + period ≤ t.scheduler.deadline)
      (cleared : ∀ tick ∈ t.ticks, tick.Cleared period t.scheduler.deadline)
  /-- The latest tick is running. -/
  | ticking {time : Nat} {earlier : List Tick} (phase : t.scheduler.phase = .ticking)
      (ticks : t.ticks = ⟨time, none⟩ :: earlier)
  /-- There will be no more ticks. -/
  | ended (phase : t.scheduler.phase = .ended)

/-- What holds at every moment of every run. -/
structure Sound (period began : Nat) (t : Thread) : Prop where
  /-- The period is always the same. -/
  period_eq : t.scheduler.period = period
  /-- The clock has not gone back behind the beginning. -/
  began_le : began ≤ t.now
  /-- Every tick started at least a period after the beginning, and none is still to come. -/
  started : ∀ tick ∈ t.ticks, began + period ≤ tick.start ∧ tick.start ≤ t.now
  /-- Of any two ticks the earlier one was over a period before the later one started. -/
  spaced : t.ticks.Pairwise fun later earlier => earlier.Cleared period later.start
  /-- The loop is at one of its places. -/
  stage : Stage period began t

theorem sound_start (period began : Nat) : (start period began).Sound period began where
  period_eq := rfl
  began_le := Nat.le_refl began
  started := nofun
  spaced := .nil
  stage := .waiting rfl (Nat.le_refl _) nofun

theorem Sound.woken (h : t.Sound period began) {timedOut : Bool}
    (due : timedOut = true → t.scheduler.deadline ≤ t.now) :
    (t.woken timedOut).Sound period began := by
  have hperiod : (t.woken timedOut).scheduler.period = period :=
    (t.scheduler.period_step _).trans h.period_eq
  cases t.scheduler.woken timedOut with
  | busy _ starts step | again _ _ _ starts step =>
      rw [Thread.woken, if_neg starts, step]
      exact h
  | ends _ _ starts step =>
      rw [Thread.woken, if_neg starts, step] at hperiod ⊢
      exact { h with period_eq := hperiod, stage := .ended rfl }
  | starts phase _ hdue starts step =>
      -- what was a period before the deadline is a period before now
      obtain ⟨hfirst, hcleared⟩ : began + period ≤ t.scheduler.deadline ∧
          ∀ tick ∈ t.ticks, tick.Cleared period t.scheduler.deadline := by
        cases h.stage with
        | waiting _ first cleared => exact ⟨first, cleared⟩
        | ticking hp | ended hp => simp [hp] at phase
      rw [Thread.woken, if_pos starts, step] at hperiod ⊢
      exact {
        period_eq := hperiod
        began_le := h.began_le
        started := List.forall_mem_cons.mpr
          ⟨⟨Nat.le_trans hfirst (due hdue), Nat.le_refl t.now⟩, h.started⟩
        spaced := List.pairwise_cons.mpr
          ⟨fun tick htick => (hcleared tick htick).mono (due hdue), h.spaced⟩
        stage := .ticking rfl rfl }

/-- A thread in a tick has a latest one, which is not over. -/
theorem Sound.running (h : t.Sound period began) (ticking : t.scheduler.phase = .ticking) :
    ∃ time earlier, t.ticks = ⟨time, none⟩ :: earlier ∧ time ≤ t.now := by
  cases h.stage with
  | @ticking time earlier _ ticks =>
      exact ⟨time, earlier, ticks, (h.started ⟨time, none⟩ (by simp [ticks])).2⟩
  | waiting hp | ended hp => simp [hp] at ticking

/-- The end of a tick is written down where its start was. -/
theorem ticks_ended {time : Nat} {earlier : List Tick} (ticks : t.ticks = ⟨time, none⟩ :: earlier)
    (alive : Bool) : (t.ended alive).ticks = ⟨time, some (t.now, alive)⟩ :: earlier := by
  rw [ended, ticks]
  rfl

theorem Sound.ended (h : t.Sound period began) (alive : Bool)
    (ticking : t.scheduler.phase = .ticking) : (t.ended alive).Sound period began := by
  obtain ⟨time, earlier, hticks, hpast⟩ := h.running ticking
  have hstarted := h.started
  have hspaced := h.spaced
  rw [hticks] at hstarted hspaced
  obtain ⟨hlatest, hearlier⟩ := List.forall_mem_cons.mp hstarted
  obtain ⟨hcleared, hpairwise⟩ := List.pairwise_cons.mp hspaced
  have hended := ticks_ended hticks alive
  refine {
    period_eq := (t.scheduler.period_step _).trans h.period_eq
    began_le := h.began_le
    started := hended ▸ List.forall_mem_cons.mpr ⟨hlatest, hearlier⟩
    spaced := hended ▸ List.pairwise_cons.mpr ⟨hcleared, hpairwise⟩
    stage := ?_ }
  cases alive with
  | true =>
      have hstep : (t.ended true).scheduler =
          { t.scheduler with phase := .waiting, deadline := t.now + period } := by
        simp [Thread.ended, Scheduler.step, ticking, h.period_eq]
      refine .waiting (by rw [hstep]) ?_ ?_
      · rw [hstep]
        exact Nat.add_le_add_right h.began_le period
      · rw [hstep, hended]
        refine List.forall_mem_cons.mpr ⟨⟨t.now, rfl, hpast, Nat.le_refl _⟩, fun tick htick => ?_⟩
        exact (hcleared tick htick).mono (Nat.le_trans hpast (Nat.le_add_right _ _))
  | false => exact .ended (by simp [Thread.ended, Scheduler.step, ticking])

/-- The stage is a matter of the phase, the deadline and the ticks. -/
theorem Stage.congr (h : Stage period began t) (phase : t'.scheduler.phase = t.scheduler.phase)
    (deadline : t'.scheduler.deadline = t.scheduler.deadline) (ticks : t'.ticks = t.ticks) :
    Stage period began t' := by
  cases h with
  | waiting waits first cleared =>
      refine .waiting (phase.trans waits) ?_ ?_
      · rwa [deadline]
      · rwa [deadline, ticks]
  | ticking runs latest => exact .ticking (phase.trans runs) (ticks.trans latest)
  | ended ends => exact .ended (phase.trans ends)

/-- **Every step keeps the ticks apart.** -/
theorem sound_step (h : t.Sound period began) (hs : Step t t') : t'.Sound period began := by
  cases hs with
  | pass later forward =>
      refine { h with
        began_le := Nat.le_trans h.began_le forward
        started := fun tick htick => ?_
        stage := h.stage.congr rfl rfl rfl }
      obtain ⟨hfirst, hpast⟩ := h.started tick htick
      exact ⟨hfirst, Nat.le_trans hpast forward⟩
  | wake timedOut due => exact h.woken due
  | finish alive ticking => exact h.ended alive ticking
  | stop => exact { h with stage := h.stage.congr rfl rfl rfl }

theorem Reachable.sound (h : Reachable period began t) : t.Sound period began := by
  induction h with
  | refl => exact sound_start period began
  | tail _ hs ih => exact sound_step ih hs

/-- When a tick ends, ticks were running when they were running before. -/
theorem Sound.spans_ended (h : t.Sound period began) (alive : Bool)
    (ticking : t.scheduler.phase = .ticking) {tick : Tick} (htick : tick ∈ t.ticks) {time : Nat}
    (hspans : tick.Spans time) (past : time ≤ t.now) :
    ∃ tick ∈ (t.ended alive).ticks, tick.Spans time := by
  obtain ⟨_, earlier, hticks, -⟩ := h.running ticking
  rw [hticks] at htick
  rw [ticks_ended hticks]
  rcases List.mem_cons.mp htick with rfl | hearlier
  · refine ⟨_, List.mem_cons_self, hspans.1, ?_⟩
    rintro _ _ ⟨⟩
    exact past
  · exact ⟨tick, List.mem_cons_of_mem _ hearlier, hspans⟩

/-- A tick that did not find the cache was the last one. -/
theorem Sound.closed_of_gone (h : t.Sound period began) {tick : Tick} (htick : tick ∈ t.ticks)
    {e : Nat} (gone : tick.outcome = some (e, false)) : t.scheduler.Closed := by
  have notCleared : ∀ {time}, ¬ tick.Cleared period time := by
    rintro time ⟨e', outcome, -⟩
    rw [gone] at outcome
    cases outcome
  cases h.stage with
  | waiting _ _ cleared => exact absurd (cleared tick htick) notCleared
  | @ticking time earlier _ ticks =>
      have hspaced := h.spaced
      rw [ticks] at htick hspaced
      rcases List.mem_cons.mp htick with rfl | hearlier
      · cases gone
      · exact absurd ((List.pairwise_cons.mp hspaced).1 tick hearlier) notCleared
  | ended phase => exact .inr phase

/-- A closed thread stays closed, and starts no tick. -/
theorem closed_step (h : t.scheduler.Closed) (hs : Step t t') :
    t'.scheduler.Closed ∧ t'.ticks.map Tick.start = t.ticks.map Tick.start := by
  cases hs with
  | pass => exact ⟨h, rfl⟩
  | wake timedOut due =>
      refine ⟨h.step _, ?_⟩
      rw [woken, if_neg (h.not_startsTick _)]
  | finish alive ticking =>
      refine ⟨h.step _, ?_⟩
      rw [ended]
      cases t.ticks <;> rfl
  | stop => exact ⟨h.step _, rfl⟩

theorem closed_leads (h : t.scheduler.Closed) (hl : Leads t t') :
    t'.scheduler.Closed ∧ t'.ticks.map Tick.start = t.ticks.map Tick.start := by
  induction hl with
  | refl => exact ⟨h, rfl⟩
  | tail _ hs ih =>
      obtain ⟨hclosed, hstarts⟩ := ih
      obtain ⟨hclosed', hstarts'⟩ := closed_step hclosed hs
      exact ⟨hclosed', hstarts'.trans hstarts⟩

/-- The thread has not been in a hurry, and will not go on for longer than it should. -/
structure Paced (period began : Nat) (t : Thread) : Prop where
  /-- No tick starts within a period of the first deadline having been taken. -/
  first : ∀ tick ∈ t.ticks, began + period ≤ tick.start
  /-- When a tick starts, each earlier one is over, has told the thread to go on, and has been over
  for a period. -/
  spaced : t.ticks.Pairwise fun later earlier => earlier.Cleared period later.start
  /-- A wake-up that is no timeout neither starts a tick nor moves the deadline. -/
  patient : (t.woken false).ticks = t.ticks ∧
    (t.woken false).scheduler.deadline = t.scheduler.deadline
  /-- Once it was asked to stop, or a tick has told it not to go on, no tick starts. -/
  last : (t.scheduler.stopRequested = true ∨
      ∃ tick ∈ t.ticks, ∃ e, tick.outcome = some (e, false)) →
    ∀ t', Leads t t' → t'.ticks.map Tick.start = t.ticks.map Tick.start

/-- **In every run the thread keeps its pace.** -/
theorem Reachable.paced (h : Reachable period began t) : t.Paced period began := by
  have hs := h.sound
  obtain ⟨hstarts, hdeadline⟩ := t.scheduler.woken_false
  refine ⟨fun tick htick => (hs.started tick htick).1, hs.spaced, ⟨?_, hdeadline⟩, ?_⟩
  · rw [woken, if_neg hstarts]
  · intro hlast t' hl
    have hclosed : t.scheduler.Closed := by
      rcases hlast with stop | ⟨tick, htick, e, gone⟩
      · exact .inl stop
      · exact hs.closed_of_gone htick gone
    exact (closed_leads hclosed hl).2

end Thread

end Scheduler

/-! ## The thread of a cache in use -/

namespace TimedUsage

variable {K V : Type} [Ord K] {b : Builder} {began : Nat} {s s' : TimedUsage K V}
  {t : Scheduler.Thread}

/-- This is the thread of the scheduler, on the same clock, and what the scheduler rotates it
rotates during a tick. -/
structure RunBy (s : TimedUsage K V) (t : Scheduler.Thread) : Prop where
  /-- The scheduler is in the same state. -/
  scheduler : s.scheduler = some t.scheduler
  /-- The clocks agree. -/
  now : s.now = t.now
  /-- Every rotation of the scheduler falls into a tick of the thread. -/
  during : ∀ d ∈ s.ticks, ∃ tick ∈ t.ticks, tick.Spans d.time

/-- Its operation is in progress only while the scheduler runs a tick. -/
theorem Stage.ticking {tick : Option (Ongoing K V)} {ticks : List (Dated K V)} {now : Nat}
    {sch : Scheduler} (h : Stage tick ticks now sch) {o : Ongoing K V} (here : tick = some o) :
    sch.phase = .ticking := by
  cases h with
  | begun phase | running phase => exact phase
  | waiting _ idle | spent _ idle | ended _ idle => simp [idle] at here

/-- The thread goes along with every step. -/
theorem RunBy.step {period : Nat} (h : s.RunBy t) (hs : s.Sound b began)
    (ht : t.Sound period began) (step : Step b.listeners s s') :
    ∃ t', Scheduler.Thread.Leads t t' ∧ s'.RunBy t' := by
  have only : ∀ {sch}, s.scheduler = some sch → sch = t.scheduler := fun here =>
    Option.some.inj (here.symm.trans h.scheduler)
  have close : ∀ alive, t.scheduler.phase = .ticking →
      ∀ d ∈ s.ticks, ∃ tick ∈ (t.ended alive).ticks, tick.Spans d.time := by
    intro alive ticking d hd
    obtain ⟨tick, htick, hspans⟩ := h.during d hd
    have hpast : d.time ≤ t.now := h.now ▸ (hs.past d (List.mem_filter.mp hd).1).2
    exact ht.spans_ended alive ticking htick hspans hpast
  cases step with
  | @pass later forward =>
      exact ⟨_, .single (.pass t later (h.now ▸ forward)), h.scheduler, rfl, h.during⟩
  | @act u new step since =>
      refine ⟨t, .refl, h.scheduler, h.now, ?_⟩
      rw [ticks, filter_date_false]
      exact h.during
  | @wake sch timedOut here due =>
      obtain rfl := only here
      refine ⟨_, .single (.wake t timedOut (h.now ▸ due)), rfl, h.now, fun d hd => ?_⟩
      obtain ⟨tick, htick, hspans⟩ := h.during d hd
      refine ⟨tick, ?_, hspans⟩
      rw [Scheduler.Thread.woken]
      split
      · exact List.mem_cons_of_mem _ htick
      · exact htick
  | @tick u o rest new here step since =>
      have hticking := (hs.stage h.scheduler).ticking here
      obtain ⟨time, earlier, hticks, hpast⟩ := ht.running hticking
      refine ⟨t, .refl, h.scheduler, h.now, fun d hd => ?_⟩
      rw [ticks, filter_date_true] at hd
      rcases List.mem_append.mp hd with hd | hd
      · exact h.during d hd
      · obtain ⟨v, -, rfl⟩ := List.mem_map.mp hd
        refine ⟨⟨time, none⟩, by simp [hticks], ?_, fun _ _ ended => ?_⟩
        · rw [h.now]
          exact hpast
        · cases ended
  | @finish sch here ticking idle =>
      obtain rfl := only here
      refine ⟨_, .single (.finish t true ticking), ?_, h.now, close true ticking⟩
      rw [h.now]
      rfl
  | @vanish sch here begun =>
      obtain rfl := only here
      have hticking := (hs.stage h.scheduler).ticking begun
      refine ⟨_, .single (.finish t false hticking), ?_, h.now, close false hticking⟩
      rw [h.now]
      rfl
  | @stop sch here =>
      obtain rfl := only here
      exact ⟨_, .single (.stop t), rfl, h.now, h.during⟩

/-- **Every cache in use that has a scheduler has such a thread.** -/
theorem Reachable.runBy {period : Nat} (h : Reachable b began s)
    (scheduled : b.schedulerPeriod? = some period) :
    ∃ t, Scheduler.Thread.Reachable period began t ∧ s.RunBy t := by
  induction h with
  | refl =>
      refine ⟨_, .refl, ?_, rfl, nofun⟩
      rw [start, scheduled]
      rfl
  | @tail m _ hm step ih =>
      obtain ⟨t, ht, hr⟩ := ih
      obtain ⟨t', hl, hr'⟩ := hr.step (Reachable.sound hm) ht.sound step
      exact ⟨t', ht.trans hl, hr'⟩

end TimedUsage

end GenerationalCache
