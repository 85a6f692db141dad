/-!
# The eviction scheduler

The scheduler rotates the generations once per period until it is stopped or the cache is gone. It
waits for a deadline, runs a tick, and only then sets the next deadline, a full period later; so two
ticks never overlap and never follow each other in less than a period.

A wait may end for other reasons than the deadline. Whatever the reason, the request to stop is looked
at first: once it is made, no tick starts any more.
-/

namespace GenerationalCache

/-- What the scheduler is doing. -/
inductive Scheduler.Phase where
  /-- It waits for its deadline. -/
  | waiting
  /-- It runs a tick. -/
  | ticking
  /-- It has ended. -/
  | ended
  deriving DecidableEq, Repr

/-- The state of a scheduler. Times are in nanoseconds. -/
structure Scheduler where
  /-- The time between the end of a tick, or the start, and the next tick. -/
  period : Nat
  /-- When the next tick is due. -/
  deadline : Nat
  /-- Whether somebody asked it to stop. -/
  stopRequested : Bool := false
  /-- What it is doing. -/
  phase : Scheduler.Phase := .waiting
  deriving DecidableEq, Repr

namespace Scheduler

/-- What can happen to a scheduler. -/
inductive Signal where
  /-- Its wait ends, because of the deadline or for another reason. -/
  | woken (timedOut : Bool)
  /-- Its tick ends at a time and tells whether the cache is still there. -/
  | tickEnded (now : Nat) (alive : Bool)
  /-- Somebody asks it to stop. -/
  | stop
  deriving DecidableEq, Repr

/-- A scheduler that starts at a time. -/
def start (period now : Nat) : Scheduler := { period, deadline := now + period }

/-- What a signal does. -/
def step (s : Scheduler) : Signal → Scheduler
  | .woken timedOut =>
    match s.phase with
    | .waiting =>
      if s.stopRequested then { s with phase := .ended }
      else if timedOut then { s with phase := .ticking }
      else s
    | _ => s
  | .tickEnded now alive =>
    match s.phase with
    | .ticking =>
      if alive then { s with phase := .waiting, deadline := now + s.period }
      else { s with phase := .ended }
    | _ => s
  | .stop => { s with stopRequested := true }

/-- Whether a signal makes a tick start. -/
def startsTick (s : Scheduler) (signal : Signal) : Bool :=
  s.phase != .ticking && (s.step signal).phase == .ticking

/-- The scheduler after a sequence of signals. -/
def run (s : Scheduler) (signals : List Signal) : Scheduler := signals.foldl step s

end Scheduler

end GenerationalCache
