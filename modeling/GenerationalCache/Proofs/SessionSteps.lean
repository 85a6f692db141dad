import GenerationalCache.Proofs.Visits
import GenerationalCache.Scenario.Session

/-!
# What the steps of a session are made of

A step of a scenario does much besides using the cache: it names results, holds entries, sets the
provider up. All that it does to the cache it does by running operations, one after the other, and
by letting the cache receive reports; and what a listener does from inside a call is made of steps
again. So whatever relates the sessions before and after an operation, and before and after a
report, relates those before and after a step, at every depth of nesting.
-/

namespace GenerationalCache

theorem Program.run_step {σ K V α β S : Type} (act : {γ : Type} → Action σ K V γ → S → γ × S)
    (action : Action σ K V β) (next : β → Program σ K V α) (s : S) :
    (Program.step action next).run act s = (next (act action s).1).run act (act action s).2 :=
  rfl

theorem Program.run_bind {σ K V α β S : Type} (act : {γ : Type} → Action σ K V γ → S → γ × S)
    (p : Program σ K V α) (f : α → Program σ K V β) (s : S) :
    (p.bind f).run act s = (f (p.run act s).1).run act (p.run act s).2 := by
  induction p generalizing s with
  | done a => rfl
  | step action next ih => exact ih (act action s).1 (act action s).2

namespace Scenario

namespace Session

variable {σ : Type} {script : Script σ} {R : Session σ → Session σ → Prop}
  {onCall : Delivery Item → Session σ → Session σ} {s s' s'' : Session σ}

/-- The calls of listeners in this step so far. -/
def calls (s : Session σ) : List (Delivery Item) :=
  s.happenings.reverse.filterMap fun
    | .called d => some d
    | .reacted _ _ => none

theorem calls_record_called (s : Session σ) (d : Delivery Item) :
    (s.record (.called d)).calls = s.calls ++ [d] := by
  simp [calls, record]

/-- What is said to happen in the call of a listener is related to the call that was made. -/
def Reacts (R : Session σ → Session σ → Prop) (onCall : Delivery Item → Session σ → Session σ) :
    Prop := ∀ d s, R (s.record (.called d)) (onCall d s)

/-- A program after which a session is related to what it was before. -/
def Related (script : Script σ) (R : Session σ → Session σ → Prop)
    (onCall : Delivery Item → Session σ → Session σ) {α : Type} (p : Program σ String Item α) :
    Prop := ∀ s, R s (s.run script onCall p).2

/-- A relation that operations and reports keep to, if listeners do. -/
structure Tracks (script : Script σ) (R : Session σ → Session σ → Prop) : Prop where
  /-- One step may follow another. -/
  trans : ∀ {s s' s'' : Session σ}, R s s' → R s' s'' → R s s''
  /-- Neither the cache nor the provider has been asked for anything, and no listener called. -/
  aside : ∀ {s s' : Session σ}, s'.cache = s.cache → s'.calls = s.calls →
    s'.provider.calls = s.provider.calls → R s s'
  /-- Operations keep to it. -/
  program : ∀ {onCall}, Reacts R onCall → ∀ c, Related script R onCall (script.operations.program c)
  /-- Reports do, too. -/
  receive : ∀ {onCall}, Reacts R onCall → ∀ report s, R s (receive script onCall report s)

namespace Tracks

theorem refl (h : Tracks script R) (s : Session σ) : R s s := h.aside rfl rfl rfl

theorem foldl (h : Tracks script R) {α : Type} {f : Session σ → α → Session σ}
    (hf : ∀ s a, R s (f s a)) (as : List α) (s : Session σ) : R s (as.foldl f s) := by
  induction as generalizing s with
  | nil => exact h.refl s
  | cons a as ih => exact h.trans (hf s a) (ih _)

theorem noteKey (h : Tracks script R) (s : Session σ) (key : String) : R s (s.noteKey key) :=
  h.aside rfl rfl rfl

/-- Finding the value that is to be stored may make a new result, and nothing else. -/
theorem itemOf? (h : Tracks script R) (s : Session σ) (distributed : Bool) (input : Input) :
    R s (s.itemOf? distributed input).2 := by
  unfold Session.itemOf?
  split
  · split <;> exact h.aside rfl rfl rfl
  · exact h.refl s
  · split <;> exact h.aside rfl rfl rfl

theorem of_run {α : Type} {p : Program σ String Item α} {a : α}
    (hrun : s.run script onCall p = (a, s')) (hp : Related script R onCall p) : R s s' := by
  have hs := hp s
  rw [hrun] at hs
  exact hs

theorem bind (h : Tracks script R) {α β : Type} {p : Program σ String Item α}
    {f : α → Program σ String Item β} (hp : Related script R onCall p)
    (hf : ∀ a, Related script R onCall (f a)) : Related script R onCall (p.bind f) := by
  intro s
  unfold Session.run
  rw [Program.run_bind]
  exact h.trans (hp s) (hf _ _)

section Steps

variable (h : Tracks script R) (hreacts : Reacts R onCall)

include h hreacts

/-- Removing keys one by one is one operation after the other. -/
theorem removeCounting (ks : List String) (count : Nat) :
    Related script R onCall (script.operations.removeCounting ks count) := by
  induction ks generalizing count with
  | nil => exact h.refl
  | cons k ks ih =>
      refine h.bind (h.program hreacts (.remove k)) fun removed => ?_
      cases removed with
      | error failure => exact h.refl
      | ok present => exact ih _

theorem fill (stem : String) (is : List Nat) (s : Session σ) :
    R s (Session.fill script onCall stem is s).2 := by
  induction is generalizing s with
  | nil => exact h.refl s
  | cons i is ih =>
      rw [Session.fill]
      split
      · next hrun => exact of_run hrun (h.program hreacts (.insert _ _))
      · next hrun => exact h.trans (of_run hrun (h.program hreacts (.insert _ _))) (ih _)

theorem touch (stem : String) (is : List Nat) (count : Nat) (s : Session σ) :
    R s (Session.touch script onCall stem is count s).2 := by
  induction is generalizing count s with
  | nil => exact h.refl s
  | cons i is ih =>
      rw [Session.touch]
      split
      · next hrun => exact h.trans (of_run hrun (h.program hreacts (.get _))) (ih _ _)
      · next hrun => exact h.trans (of_run hrun (h.program hreacts (.get _))) (ih _ _)

theorem lookupTimes (key : String) (m : Nat) (found : List (Entry Item)) (s : Session σ) :
    R s (Session.lookupTimes script onCall key m found s).2 := by
  induction m generalizing found s with
  | zero => exact h.refl s
  | succ m ih =>
      rw [Session.lookupTimes]
      split
      · next hrun => exact of_run hrun (h.program hreacts (.lookup _))
      · next hrun => exact h.trans (of_run hrun (h.program hreacts (.lookup _))) (ih _ _)

theorem race (key : String) (count : Nat) (s : Session σ) :
    R s (Session.race script onCall key count s).2 := by
  have hlookups := h.lookupTimes hreacts key count [] s
  unfold Session.race
  rcases hfound : Session.lookupTimes script onCall key count [] s with ⟨found, after⟩
  rw [hfound] at hlookups
  cases found with
  | error failure => exact h.trans hlookups (h.aside rfl rfl rfl)
  | ok found => exact h.trans hlookups (h.aside rfl rfl rfl)

theorem nameFrom (name key : String) (s : Session σ) :
    R s (Session.nameFrom script onCall name key s).2 := by
  have hget := h.program hreacts (.get key)
  rw [Session.nameFrom]
  split
  · next hrun => exact of_run hrun hget
  · next hrun => exact h.trans (of_run hrun hget) (h.aside rfl rfl rfl)
  · next hrun => exact h.trans (of_run hrun hget) (h.aside rfl rfl rfl)
  · next hrun => exact of_run hrun hget

/-- A report goes to every registration, one after the other. -/
theorem receiveAll (report : Report) (s : Session σ) :
    R s (Session.receiveAll script onCall report s) :=
  h.foldl (fun s _ => h.receive hreacts report s) _ s

/-- Whatever a step does, it keeps to the relation. -/
theorem step (scenarioStep : Step) (s : Session σ) :
    R s (s.step script onCall scenarioStep).2 := by
  have hprogram := fun c => h.program hreacts c
  cases scenarioStep with
  | get key => exact h.trans (h.noteKey s key) (hprogram (.get key) _)
  | lookup key name =>
      refine h.trans (h.noteKey s key) ?_
      rw [Session.step]
      split
      · next hrun => exact of_run hrun (hprogram (.lookup key))
      · next hrun => exact h.trans (of_run hrun (hprogram (.lookup key))) (h.aside rfl rfl rfl)
  | insert key input =>
      refine h.trans (h.noteKey s key) ?_
      have hitem := h.itemOf? (s.noteKey key) script.operations.distributed input
      rw [Session.step]
      split
      · next hfound =>
          rw [hfound] at hitem
          exact hitem
      · next hfound =>
          rw [hfound] at hitem
          exact h.trans hitem (hprogram (.insert key _) _)
  | remove key => exact h.trans (h.noteKey s key) (hprogram (.remove key) _)
  | clear => exact hprogram .clear s
  | rotate => exact hprogram .evictStale s
  | evictionRequired => exact hprogram .evictionRequired s
  | fill stem first last => exact h.fill hreacts stem _ s
  | touch stem first last => exact h.touch hreacts stem _ 0 s
  | racingLookups key count => exact h.trans (h.noteKey s key) (h.race hreacts key count _)
  | nameResult name key => exact h.trans (h.noteKey s key) (h.nameFrom hreacts name key _)
  | invalidateResult name =>
      rw [Session.step]
      split
      · exact h.refl s
      · exact h.removeCounting hreacts _ 0 s
  | providerExpire keys =>
      have hprovider : R s { s with provider := (s.provider.expire keys).2 } := h.aside rfl rfl rfl
      exact h.trans hprovider (h.receiveAll hreacts _ _)
  | providerReport report => exact h.receiveAll hreacts report s
  | entry name | same a b | addLookupKey name key =>
      rw [Session.step]
      split <;> exact h.aside rfl rfl rfl
  | lookupKeys name | resultSubject name | showResult name | describeResult name =>
      rw [Session.step, ofObject]
      split <;> exact h.refl s
  | _ => exact h.aside rfl rfl rfl

end Steps

/-- Reactions keep to the relation, however deep they nest. -/
theorem reacts_called (h : Tracks script R) (depth : Nat) : Reacts R (called script depth) := by
  induction depth with
  | zero => exact fun d s => h.refl _
  | succ depth ih =>
      intro d s
      refine h.foldl (fun s reaction => ?_) _ _
      refine h.trans (h.step ih reaction s) (h.aside rfl ?_ rfl)
      simp [calls, record]

end Tracks

end Session

end Scenario

end GenerationalCache
