import GenerationalCache.Proofs.Counting
import GenerationalCache.Proofs.Pacing

/-!
# Stopping the scheduler

To stop the scheduler a thread takes it out of the cache, which lets go of it, then asks it to stop,
and then waits until it has ended. The scheduler's own thread may be the one that stops it, from a
listener that it calls in a tick. It does not wait for itself: it asks, and ends after its tick.

Either way, once this call has returned, the scheduler is closed, and the rotation of its last tick
is over. Neither can be undone, since no tick starts any more. What has been counted as rotations
from then on are rotations that clients asked for or needed in order to store a value.

Whoever comes later finds nothing to stop, and returns at once. The scheduler is taken out of the
cache before it is asked, so such a call does not wait for the one that does the work, and promises
nothing by itself: until that one has asked, ticks still begin, and until it has returned, the last
tick may still rotate. What a call promises therefore holds once no other thread is still stopping
the scheduler.
-/

namespace GenerationalCache

variable {K V : Type} [Ord K]

/-! ## The counter of rotations -/

/-- Only two operations ever rotate. -/
theorem Visit.rotates {v : Visit K V}
    (h : v.left.counters.rotations ≠ v.found.counters.rotations) :
    v.call = .evictStale ∨ ∃ k x, v.call = .insert k x := by
  have hcount : v.left.counters.rotations = v.found.counters.rotations + .ofNat v.rotations :=
    congrArg Counters.rotations v.counters_left
  obtain ⟨call, c⟩ := v
  cases call with
  | insert k x => exact .inr ⟨k, x, rfl⟩
  | evictStale => exact .inl rfl
  | lookup k | get k | remove k | clear | evictionRequired =>
      exact absurd (hcount.trans (UInt64.add_zero _)) h

/-- The counter goes up by the rotations of the visits. -/
theorem Chronicle.rotations_eq {a c : LocalCache K V} {h : List (Visit K V)}
    (hc : Chronicle a h c) :
    c.counters.rotations = a.counters.rotations + .ofNat (rotationsIn h) := by
  induction hc with
  | nil => exact (UInt64.add_zero _).symm
  | @snoc h v _ ih =>
      rw [congrArg Counters.rotations v.counters_left, ih, rotationsIn_append,
        rotationsIn_singleton, UInt64.ofNat_add, UInt64.add_assoc]

theorem Chronicle.append {a b c : LocalCache K V} {h₁ h₂ : List (Visit K V)}
    (h : Chronicle a h₁ b) (h' : Chronicle b h₂ c) : Chronicle a (h₁ ++ h₂) c := by
  induction h' with
  | nil => rwa [List.append_nil]
  | snoc v _ ih =>
      rw [← List.append_assoc]
      exact ih.snoc v

/-! ## A scheduler that rotates no more -/

namespace TimedUsage

variable {listeners : Nat} {s s' s'' : TimedUsage K V} {since since' : List (Dated K V)}

/-- The scheduler, if there is one, was asked to stop or has ended. -/
def Closed (s : TimedUsage K V) : Prop := ∀ sch, s.scheduler = some sch → sch.Closed

/-- The scheduler, if there is one, has ended. -/
def Ended (s : TimedUsage K V) : Prop := ∀ sch, s.scheduler = some sch → sch.phase = .ended

/-- No rotation of the scheduler is still to come in its tick. -/
def Past (s : TimedUsage K V) : Prop := ∀ c, s.tick ≠ some (.waiting c)

/-- From one state to a later one, only clients and listeners have used the cache. -/
structure LeftAlone (s s' : TimedUsage K V) (since : List (Dated K V)) : Prop where
  /-- What has run since. -/
  dated : s'.dated = s.dated ++ since
  /-- No tick of the scheduler is among it. -/
  unscheduled : ∀ d ∈ since, ¬ d.scheduled
  /-- It is what has changed the cache. -/
  chronicle : Chronicle s.usage.cache (since.map Dated.visit) s'.usage.cache

theorem LeftAlone.refl (s : TimedUsage K V) : s.LeftAlone s [] where
  dated := (List.append_nil _).symm
  unscheduled := nofun
  chronicle := .nil

theorem LeftAlone.trans (h : s.LeftAlone s' since) (h' : s'.LeftAlone s'' since') :
    s.LeftAlone s'' (since ++ since') where
  dated := by rw [h'.dated, h.dated, List.append_assoc]
  unscheduled := List.forall_mem_append.mpr ⟨h.unscheduled, h'.unscheduled⟩
  chronicle := by
    rw [List.map_append]
    exact h.chronicle.append h'.chronicle

/-- To ask the scheduler to stop is to close it. -/
theorem closed_of_stop (s : TimedUsage K V) (sch : Scheduler) :
    ({ s with scheduler := some (sch.step .stop) } : TimedUsage K V).Closed := by
  rintro _ ⟨⟩
  exact .inl rfl

/-- What is true of the scheduler whatever signal it gets stays true. -/
theorem scheduler_step {P : Scheduler → Prop} (keep : ∀ sch signal, P sch → P (sch.step signal))
    (h : ∀ sch, s.scheduler = some sch → P sch) (hs : Step listeners s s') :
    ∀ sch, s'.scheduler = some sch → P sch := by
  cases hs with
  | pass | act | tick => exact h
  | wake timedOut here due =>
      rintro _ ⟨⟩
      exact keep _ _ (h _ here)
  | finish here | vanish here | stop here =>
      rintro _ ⟨⟩
      exact keep _ _ (h _ here)

theorem Closed.step (h : s.Closed) (hs : Step listeners s s') : s'.Closed :=
  scheduler_step (fun _ signal closed => closed.step signal) h hs

theorem Ended.step (h : s.Ended) (hs : Step listeners s s') : s'.Ended :=
  scheduler_step (fun _ signal ended => Scheduler.phase_step_of_ended ended signal) h hs

theorem Ended.leads (h : s.Ended) (hl : Leads listeners s s') : s'.Ended := by
  induction hl with
  | refl => exact h
  | tail _ hs ih => exact ih.step hs

/-- A scheduler that has ended has no tick. -/
theorem Ended.idle {b : Builder} {began : Nat} (ended : s.Ended) (h : s.Sound b began) :
    s.tick = none := by
  cases hsch : s.scheduler with
  | none => exact (h.unscheduled hsch).1
  | some sch =>
      have hended := ended sch hsch
      cases h.stage hsch with
      | waiting _ idle | spent _ idle | ended _ idle => exact idle
      | begun phase | running phase => simp [phase] at hended

/-- A closed scheduler does not begin another rotation. -/
theorem Past.step (h : s.Past) (closed : s.Closed) (hs : Step listeners s s') : s'.Past := by
  cases hs with
  | pass | act | finish | stop => exact h
  | wake timedOut here due =>
      rw [Past, if_neg ((closed _ here).not_startsTick _)]
      exact h
  | @tick u o rest new here step since =>
      rcases step.of_single with ⟨c, next, -, rfl, -⟩ | ⟨v, r, -, -, rfl | ⟨r', rfl⟩⟩ <;> nofun
  | vanish => nofun

/-- **When no rotation of its tick is still to come, a step is not the scheduler's rotation.** -/
theorem Past.leftAlone (h : s.Past) (hs : Step listeners s s') :
    ∃ since, s.LeftAlone s' since := by
  cases hs with
  | pass | wake | finish | vanish | stop => exact ⟨[], { LeftAlone.refl s with }⟩
  | @act u new step since =>
      obtain ⟨new', hnew, hchronicle⟩ := Usage.Leads.chronicle (.single step)
      obtain rfl := List.append_cancel_left (since.symm.trans hnew)
      refine ⟨_, rfl, fun d hd => ?_, ?_⟩
      · obtain ⟨v, -, rfl⟩ := List.mem_map.mp hd
        exact Bool.false_ne_true
      · simpa [Function.comp_def] using hchronicle
  | @tick u o rest new here step since =>
      obtain ⟨new', hnew, hchronicle⟩ := Usage.Leads.chronicle (.single step)
      rcases step.of_single with ⟨c, next, rfl, -⟩ | ⟨v, r, rfl, hsame, -⟩
      · exact absurd here (h c)
      · -- the operation is past its critical section, and so the cache is what it was
        obtain rfl := List.append_right_eq_self.mp (hnew.symm.trans hsame)
        obtain rfl := List.append_right_eq_self.mp (since.symm.trans hsame)
        exact ⟨[], by simp [date], nofun, hchronicle⟩

end TimedUsage

/-! ## The machine -/

/-- A thread that has taken the scheduler out of the cache, in order to stop it. -/
structure Stopper where
  /-- Whether it is the scheduler's own thread, in a call of a listener from inside a tick. -/
  inside : Bool
  /-- Whether it has asked the scheduler to stop. -/
  asked : Bool := false
  deriving DecidableEq, Repr

/-- A call that has returned. -/
structure StopCall where
  /-- Whether the scheduler's own thread made it. -/
  inside : Bool
  /-- Whether it found the scheduler. -/
  found : Bool
  deriving DecidableEq, Repr

/-- A cache in use, and those who stop its scheduler. -/
structure Teardown (K V : Type) [Ord K] : Type 1 where
  /-- The cache, with its clients and its scheduler. -/
  timed : TimedUsage K V
  /-- Whether the scheduler can be found in the cache. -/
  held : Bool
  /-- The one who has found it, and has not returned. -/
  stopper : Option Stopper := none
  /-- The calls that have returned, the latest first. -/
  returned : List StopCall := []

namespace Teardown

/-- A new cache. -/
def start (b : Builder) (began : Nat) : Teardown K V where
  timed := .start b began
  held := b.schedulerPeriod?.isSome

/-- One step of a cache in use that has this many listeners. -/
inductive Step (listeners : Nat) : Teardown K V → Teardown K V → Prop where
  /-- The cache, its clients and its scheduler go on. The scheduler's own thread stands still while
  it is in the call that stops it. -/
  | run {s : Teardown K V} {t : TimedUsage K V} (step : TimedUsage.Step listeners s.timed t)
      (still : ∀ stopper, s.stopper = some stopper → stopper.inside = true →
        t.tick = s.timed.tick) :
      Step listeners s { s with timed := t }
  /-- A call finds the scheduler and takes it. From inside a tick it is a listener that calls, and
  the rotation is over. -/
  | take {s : Teardown K V} (inside : Bool) (held : s.held = true)
      (here : inside = true → ∃ v rest, s.timed.tick = some (.finishing v rest)) :
      Step listeners s { s with held := false, stopper := some { inside } }
  /-- A call finds no scheduler, and returns. -/
  | miss {s : Teardown K V} (inside : Bool) (gone : s.held = false) :
      Step listeners s { s with returned := ⟨inside, false⟩ :: s.returned }
  /-- The one who has taken the scheduler asks it to stop. -/
  | ask {s : Teardown K V} {inside : Bool} {sch : Scheduler}
      (here : s.stopper = some { inside, asked := false })
      (scheduler : s.timed.scheduler = some sch) :
      Step listeners s { s with
        timed := { s.timed with scheduler := some (sch.step .stop) }
        stopper := some { inside, asked := true } }
  /-- Having asked, it returns, and if it is another thread than the scheduler's, not before that
  one has ended. -/
  | leave {s : Teardown K V} {inside : Bool} (here : s.stopper = some { inside, asked := true })
      (joined : inside = false → s.timed.Ended) :
      Step listeners s { s with stopper := none, returned := ⟨inside, true⟩ :: s.returned }

/-- One state may follow another, after any number of steps. -/
def Leads (listeners : Nat) : Teardown K V → Teardown K V → Prop :=
  Relation.ReflTransGen (Step listeners)

/-- A state of some run on a cache that was built at this time. -/
def Reachable (b : Builder) (began : Nat) (s : Teardown K V) : Prop :=
  Leads b.listeners (start b began) s

/-- A call has returned, and it was the one that found the scheduler, or at least no other thread
that has found it is still at it. A call that finds nothing does not wait for such a thread. -/
def Stopped (s : Teardown K V) : Prop :=
  ∃ call ∈ s.returned, call.found = true ∨
    ∀ stopper, s.stopper = some stopper → stopper.inside = true

variable {b : Builder} {began : Nat} {listeners : Nat} {s s' : Teardown K V}

/-- To ask the scheduler to stop is one of the things that may happen to a cache on time. -/
theorem Step.timed (hs : Step listeners s s') : TimedUsage.Leads listeners s.timed s'.timed := by
  cases hs with
  | run step => exact .single step
  | take | miss | leave => exact .refl
  | ask _ scheduler => exact .single (.stop scheduler)

theorem Leads.timed (hl : Leads listeners s s') :
    TimedUsage.Leads listeners s.timed s'.timed := by
  induction hl with
  | refl => exact .refl
  | tail _ hs ih => exact ih.trans hs.timed

theorem Reachable.timed (h : Reachable b began s) : s.timed.Reachable b began := Leads.timed h

/-! ## What a call that has returned leaves behind -/

/-- The scheduler rotates no more. -/
inductive Settled (s : Teardown K V) : Prop where
  /-- Its own thread is stopping it, from inside the tick whose rotation was the last one. -/
  | inside {asked : Bool} {v : Visit K V} {rest : Program (LocalCache K V) K V v.call.Answer}
      (gone : s.held = false) (stopper : s.stopper = some { inside := true, asked })
      (tick : s.timed.tick = some (.finishing v rest)) (closed : asked = true → s.timed.Closed)
  /-- It was stopped, or there never was one. -/
  | free (gone : s.held = false) (stopper : s.stopper = none) (closed : s.timed.Closed)
      (past : s.timed.Past)

/-- How far the stop has got. -/
inductive Stage (s : Teardown K V) : Prop where
  /-- Nobody has called. -/
  | held (held : s.held = true) (stopper : s.stopper = none) (returned : s.returned = [])
  /-- Another thread is stopping the scheduler, and whoever has returned did not find it. -/
  | outside {asked : Bool} (gone : s.held = false)
      (stopper : s.stopper = some { inside := false, asked })
      (missed : ∀ call ∈ s.returned, call.found = false) (closed : asked = true → s.timed.Closed)
  /-- The scheduler rotates no more, and has ended if another thread was the one to stop it. -/
  | settled (settled : Settled s)
      (ended : ∀ call ∈ s.returned, call.found = true → call.inside = false → s.timed.Ended)

theorem Settled.gone (h : Settled s) : s.held = false := by
  cases h with
  | inside gone | free gone => exact gone

theorem Settled.past (h : Settled s) : s.timed.Past := by
  cases h with
  | @inside _ v rest _ _ tick =>
      rw [TimedUsage.Past, tick]
      nofun
  | free _ _ _ past => exact past

/-- **What is settled stays settled, and no step is a rotation of the scheduler.** -/
theorem Settled.step (h : Settled s) (hs : Step listeners s s') :
    Settled s' ∧ ∃ since, s.timed.LeftAlone s'.timed since := by
  cases hs with
  | @run t step still =>
      refine ⟨?_, h.past.leftAlone step⟩
      cases h with
      | inside gone stopper tick closed =>
          exact .inside gone stopper ((still _ stopper rfl).trans tick) fun asked =>
            (closed asked).step step
      | free gone stopper closed past =>
          exact .free gone stopper (closed.step step) (past.step closed step)
  | take inside held =>
      rw [h.gone] at held
      cases held
  | miss inside gone =>
      refine ⟨?_, [], .refl _⟩
      cases h with
      | inside gone stopper tick closed => exact .inside gone stopper tick closed
      | free gone stopper closed past => exact .free gone stopper closed past
  | @ask inside sch here scheduler =>
      have hstop : TimedUsage.Step listeners s.timed _ := .stop scheduler
      refine ⟨?_, h.past.leftAlone hstop⟩
      cases h with
      | inside gone stopper tick closed =>
          rw [stopper] at here
          cases here
          exact .inside gone rfl tick fun _ => s.timed.closed_of_stop sch
      | free _ stopper =>
          rw [stopper] at here
          cases here
  | @leave inside here joined =>
      refine ⟨?_, [], .refl _⟩
      have past := h.past
      cases h with
      | inside gone stopper tick closed =>
          rw [stopper] at here
          cases here
          exact .free gone rfl (closed rfl) past
      | free _ stopper =>
          rw [stopper] at here
          cases here

theorem stage_start (b : Builder) (began : Nat) : (start b began : Teardown K V).Stage := by
  cases hperiod : b.schedulerPeriod? with
  | none =>
      have closed : (TimedUsage.start b began : TimedUsage K V).Closed := by
        simp [TimedUsage.Closed, TimedUsage.start, hperiod]
      have past : (TimedUsage.start b began : TimedUsage K V).Past := by
        simp [TimedUsage.Past, TimedUsage.start]
      exact .settled (.free (by simp [start, hperiod]) rfl closed past) (by simp [start])
  | some period => exact .held (by simp [start, hperiod]) rfl rfl

/-- Every step brings the stop further, or leaves it where it is. -/
theorem Stage.step (h : s.Stage) (sound : s.timed.Sound b began) (hs : Step listeners s s') :
    s'.Stage := by
  cases h with
  | held held stopper returned =>
      cases hs with
      | run step => exact .held held stopper returned
      | take inside _ here =>
          cases inside with
          | true =>
              obtain ⟨v, rest, tick⟩ := here rfl
              exact .settled (.inside rfl rfl tick nofun) (by simp [returned])
          | false => exact .outside rfl rfl (by simp [returned]) nofun
      | miss _ gone => simp [held] at gone
      | ask here | leave here => simp [stopper] at here
  | outside gone stopper missed closed =>
      cases hs with
      | run step =>
          exact .outside gone stopper missed fun asked => (closed asked).step step
      | take inside held => simp [gone] at held
      | miss inside => exact .outside gone stopper (List.forall_mem_cons.mpr ⟨rfl, missed⟩) closed
      | @ask inside sch here scheduler =>
          rw [stopper] at here
          cases here
          exact .outside gone rfl missed fun _ => s.timed.closed_of_stop sch
      | @leave inside here joined =>
          rw [stopper] at here
          cases here
          have ended := joined rfl
          have past : s.timed.Past := by
            rw [TimedUsage.Past, ended.idle sound]
            nofun
          exact .settled (.free gone rfl (closed rfl) past) fun _ _ _ _ => ended
  | settled settled ended =>
      have ended' : ∀ call ∈ s.returned, call.found = true → call.inside = false →
          s'.timed.Ended := fun call hcall found outside =>
        (ended call hcall found outside).leads hs.timed
      refine .settled (settled.step hs).1 ?_
      cases hs with
      | run | take | ask => exact ended'
      | miss inside => exact List.forall_mem_cons.mpr ⟨nofun, ended'⟩
      | leave here joined =>
          exact List.forall_mem_cons.mpr ⟨fun _ outside => joined outside, ended'⟩

theorem Reachable.stage (h : Reachable b began s) : s.Stage := by
  induction h with
  | refl => exact stage_start b began
  | tail h hs ih => exact ih.step (Reachable.timed h).sound hs

/-- After a call has returned, the scheduler rotates no more. -/
theorem Stopped.settled (h : s.Stopped) (hs : s.Stage) : Settled s ∧
    ∀ call ∈ s.returned, call.found = true → call.inside = false → s.timed.Ended := by
  obtain ⟨call, hcall, hstopped⟩ := h
  cases hs with
  | held _ _ returned => simp [returned] at hcall
  | outside _ stopper missed =>
      rcases hstopped with found | inside
      · simp [missed call hcall] at found
      · cases inside _ stopper
  | settled settled ended => exact ⟨settled, ended⟩

theorem Settled.leftAlone (h : Settled s) (hl : Leads listeners s s') :
    ∃ since, s.timed.LeftAlone s'.timed since := by
  have both : Settled s' ∧ ∃ since, s.timed.LeftAlone s'.timed since := by
    induction hl with
    | refl => exact ⟨h, [], .refl _⟩
    | tail _ hs ih =>
        obtain ⟨hsettled, since, halone⟩ := ih
        obtain ⟨hsettled', since', halone'⟩ := hsettled.step hs
        exact ⟨hsettled', since ++ since', halone.trans halone'⟩
  exact both.2

/-- What is so in every later state. -/
structure Quiet (s s' : Teardown K V) : Prop where
  /-- If another thread has stopped the scheduler, the scheduler has ended, and no tick is left. -/
  ended : ∀ call ∈ s.returned, call.found = true → call.inside = false →
    s'.timed.Ended ∧ s'.timed.tick = none
  /-- The critical sections since are those of clients and listeners, the counter of rotations has
  gone up by what these have rotated, and only explicit evictions and inserts have changed it. -/
  rotations : ∃ since, s.timed.LeftAlone s'.timed since ∧
    s'.timed.usage.cache.counters.rotations = s.timed.usage.cache.counters.rotations +
      .ofNat (rotationsIn (since.map Dated.visit)) ∧
    ∀ d ∈ since, d.visit.left.counters.rotations ≠ d.visit.found.counters.rotations →
      d.visit.call = .evictStale ∨ ∃ k x, d.visit.call = .insert k x

theorem Stopped.quiet (hstopped : s.Stopped) (h : Reachable b began s)
    (hl : Leads b.listeners s s') : Quiet s s' := by
  obtain ⟨hsettled, hended⟩ := hstopped.settled h.stage
  obtain ⟨since, halone⟩ := hsettled.leftAlone hl
  refine ⟨fun call hcall found outside => ?_, since, halone, halone.chronicle.rotations_eq, ?_⟩
  · have ended := (hended call hcall found outside).leads hl.timed
    exact ⟨ended, ended.idle (Reachable.timed (h.trans hl)).sound⟩
  · exact fun _ _ => Visit.rotates

/-- **The scheduler is never in a hurry, and does not outlive a stop.** Every run of its thread
keeps its pace, whatever wakes it, however long its ticks take, and whenever it is asked to stop.
The scheduler of every cache in use is such a thread. And once a call has returned, and no other
thread is still at stopping it, the counter of rotations changes only through explicit evictions and
inserts. -/
theorem keeps_pace_until_stopped (b : Builder) (began : Nat) :
    (∀ period (t : Scheduler.Thread), Scheduler.Thread.Reachable period began t →
      t.Paced period began) ∧
    ∀ s : Teardown K V, Reachable b began s →
      (∀ period, b.schedulerPeriod? = some period →
        ∃ t, Scheduler.Thread.Reachable period began t ∧ s.timed.RunBy t) ∧
      (s.Stopped → ∀ s', Leads b.listeners s s' → Quiet s s') := by
  refine ⟨fun period t ht => ht.paced, fun s hs => ⟨fun period hperiod => ?_, ?_⟩⟩
  · exact hs.timed.runBy hperiod
  · intro hstopped s' hl
    exact hstopped.quiet hs hl

/-- What happens to the cache on time while the scheduler's own thread is not at stopping it. -/
theorem leads_run {t : TimedUsage K V} (hl : TimedUsage.Leads listeners s.timed t)
    (outside : ∀ stopper, s.stopper = some stopper → stopper.inside = false) :
    Leads listeners s { s with timed := t } := by
  induction hl with
  | refl => exact .refl
  | tail _ step ih =>
      refine ih.tail (.run step fun stopper hstopper inside => ?_)
      cases (outside stopper hstopper).symm.trans inside

/-- One thread takes long over its first tick, and is asked to stop in the second. The scheduler of
a cache with a timeout of five nanoseconds rotates once before it is stopped, and a client rotates
afterwards. -/
theorem keeps_pace_until_stopped_five_nanoseconds :
    let timeout : Duration := ⟨0, 5, by decide, by decide⟩
    let b : Builder := Builder.new.withListener.withTimeout timeout
    ∃ (t : Scheduler.Thread) (s s' : Teardown Nat String),
      t.ticks = [⟨7, some (9, true)⟩, ⟨2, some (5, true)⟩] ∧ t.scheduler.phase = .ended ∧
      t.Paced 2 0 ∧
      Reachable b 0 s ∧ s.returned = [⟨false, true⟩] ∧ Leads 1 s s' ∧ Quiet s s' ∧
      (∃ thread, Scheduler.Thread.Reachable 2 0 thread ∧ s.timed.RunBy thread) ∧
      s.timed.usage.cache.counters.rotations = 1 ∧ s'.timed.usage.cache.counters.rotations = 2 := by
  intro timeout b
  obtain ⟨hthread, hcache⟩ := keeps_pace_until_stopped (K := Nat) (V := String) b 0
  -- the first tick runs from 2 to 5; at 7 a second one starts, and is asked to stop before it ends
  have hbusy : Scheduler.Thread.Reachable 2 0 _ :=
    ((((Relation.ReflTransGen.single (.pass _ 2 (by decide))).tail (.wake _ true (by decide))).tail
      (.pass _ 5 (by decide))).tail (.finish _ true rfl)).tail (.wake _ false nofun)
  have ht : Scheduler.Thread.Reachable 2 0 _ :=
    (((((hbusy.tail (.pass _ 7 (by decide))).tail (.wake _ true (by decide))).tail (.stop _)).tail
      (.pass _ 9 (by decide))).tail (.finish _ true rfl)).tail (.wake _ false nofun)
  let s₀ : Teardown Nat String := start b 0
  have hscheduler : s₀.timed.scheduler = some { period := 2, deadline := 2 } := by decide
  have hheld : s₀.held = true := by decide
  have hticks : TimedUsage.Leads 1 s₀.timed _ := .head (.pass _ (Nat.zero_le 2))
    (TimedUsage.leads_tick _ hscheduler rfl Bool.false_ne_true (Nat.le_refl 2))
  have hasked : Leads 1 s₀ _ :=
    ((leads_run hticks (by simp [s₀, start])).tail (.take false hheld nofun)).tail (.ask rfl rfl)
  have hreturned : Reachable b 0 _ :=
    (hasked.tail (.run (.wake false rfl nofun) (by rintro _ ⟨⟩; nofun))).tail
      (.leave rfl (by rintro - _ ⟨⟩; rfl))
  obtain ⟨s, hs, hcalls, hstopper, hone⟩ : ∃ s, Reachable b 0 s ∧ s.returned = [⟨false, true⟩] ∧
      s.stopper = none ∧ s.timed.usage.cache.counters.rotations = 1 :=
    ⟨_, hreturned, rfl, rfl, rfl⟩
  have hstopped : s.Stopped := ⟨⟨false, true⟩, by simp [hcalls], .inl rfl⟩
  obtain ⟨hthreads, hquiet⟩ := hcache s hs
  obtain ⟨_, -, hevict⟩ :=
    TimedUsage.leads_act s.timed (Usage.leads_alone 1 s.timed.usage .evictStale)
  have hlater := leads_run hevict (by simp [hstopper])
  refine ⟨_, s, _, rfl, rfl, hthread 2 _ ht, hs, hcalls, hlater, hquiet hstopped _ hlater,
    hthreads 2 (by decide), hone, ?_⟩
  exact (congrArg Counters.rotations (Visit.counters_left _)).trans (congrArg (· + 1) hone)

/-- A call that finds nothing to stop does not wait for the thread that took the scheduler. Here
that thread has not yet asked the scheduler to stop when the call returns, and the scheduler, which
is due, rotates once more. -/
theorem missed_stop_precedes_tick :
    let timeout : Duration := ⟨0, 5, by decide, by decide⟩
    let b : Builder := Builder.new.withListener.withTimeout timeout
    ∃ s s' : Teardown Nat String,
      Reachable b 0 s ∧ s.returned = [⟨false, false⟩] ∧ Leads 1 s s' ∧
      (∃ d, s'.timed.dated = s.timed.dated ++ [d] ∧ d.scheduled) ∧
      s.timed.usage.cache.counters.rotations = 0 ∧ s'.timed.usage.cache.counters.rotations = 1 ∧
      ¬ Quiet s s' := by
  intro timeout b
  let s : Teardown Nat String := { (start b 0 : Teardown Nat String) with
    held := false
    stopper := some { inside := false }
    returned := [⟨false, false⟩] }
  have hs : Reachable b 0 s :=
    (Relation.ReflTransGen.single (.take false (by decide) nofun)).tail (.miss false rfl)
  have hscheduler : s.timed.scheduler = some { period := 2, deadline := 2 } := by decide
  have hticks : TimedUsage.Leads 1 s.timed _ := .head (.pass _ (Nat.zero_le 2))
    (TimedUsage.leads_tick _ hscheduler rfl Bool.false_ne_true (Nat.le_refl 2))
  have hlater := leads_run hticks (by simp [s])
  refine ⟨s, _, hs, rfl, hlater, ⟨_, rfl, rfl⟩, rfl, rfl, fun quiet => ?_⟩
  obtain ⟨since, halone, -⟩ := quiet.rotations
  -- what is new since then is the tick alone, and a tick is not a client's
  obtain rfl := List.append_cancel_left halone.dated
  exact halone.unscheduled _ List.mem_cons_self rfl

end Teardown

end GenerationalCache
