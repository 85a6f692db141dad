import GenerationalCache.Proofs.Conversation

/-!
# Connecting

What one operation does about the provider, from its beginning to its answer. It looks for the
handle of an open provider, and if there is one it uses that. If there is none it opens the
provider, puts the handle in place and asks for reports. If either fails it takes the handle back
and fails in the same way. All that it asks for after that is of the provider that it has found or
opened.

An operation is at one of a few stages. The stage settles the handle in place, what the operation
has exchanged so far, and what it is going to do.
-/

namespace GenerationalCache

variable {K V : Type} {α β : Type}

namespace Program

/-- Of the provider, the program uses this handle only, and it leaves the handle in place. -/
inductive Serves (h : Handle) : Program Connection K V α → Prop where
  | done (a : α) : Serves h (.done a)
  | access {γ : Type} {change : Connection → γ × Connection} {next : γ → Program Connection K V α}
      (keeps : ∀ c, (change c).2.handle = c.handle) (rest : ∀ b, Serves h (next b)) :
      Serves h (.step (.access change) next)
  | log {e : LogEvent} {next : Unit → Program Connection K V α} (rest : Serves h (next ())) :
      Serves h (.step (.log e) next)
  | request {γ : Type} {action : Action Connection K V γ} {next : γ → Program Connection K V α}
      (uses : action.Uses h) (rest : ∀ b, Serves h (next b)) : Serves h (.step action next)

theorem Serves.bind {h : Handle} {p : Program Connection K V α} {f : α → Program Connection K V β}
    (hp : p.Serves h) (hf : ∀ a, (f a).Serves h) : (p.bind f).Serves h := by
  induction hp with
  | done a => exact hf a
  | access keeps _ ih => exact .access keeps ih
  | log _ ih => exact .log ih
  | request uses _ ih => exact .request uses ih

theorem serves_logAll (h : Handle) (es : List LogEvent) :
    (logAll es : Program Connection K V Unit).Serves h := by
  induction es with
  | nil => exact .done ()
  | cons e es ih => exact .log ih

theorem bind_assoc {σ γ : Type} (p : Program σ K V α) (f : α → Program σ K V β)
    (g : β → Program σ K V γ) : (p.bind f).bind g = p.bind fun a => (f a).bind g := by
  induction p with
  | done a => rfl
  | step action next ih =>
      simp only [bind]
      congr 1
      funext b
      exact ih b

end Program

/-- **Every operation that needs the provider connects, and then serves.** How many listeners there
are matters for connecting alone. -/
theorem Connection.program_eq (serializer : Serializer V) {c : Call K V} (hc : c.NeedsProvider) :
    ∃ serve : Except CacheFailure Handle → Program Connection K V c.Answer,
      (∀ listeners,
        (operations serializer listeners).program c = (connect listeners).bind serve) ∧
      (∀ failure, serve (.error failure) = .done (c.refusal failure)) ∧
      ∀ h, (serve (.ok h)).Serves h := by
  have hlookup : ∀ k : K, ∃ serve : Except CacheFailure Handle → Program Connection K V _,
      (∀ listeners,
        (operations serializer listeners).lookup k = (connect listeners).bind serve) ∧
      (∀ failure, serve (.error failure) = .done (.error failure)) ∧
      ∀ h, (serve (.ok h)).Serves h := by
    intro k
    refine ⟨_, fun _ => rfl, fun _ => rfl, fun h => .request rfl fun r => ?_⟩
    cases r with
    | error failure => exact .done _
    | ok bytes =>
        refine (Program.serves_logAll h _).bind fun _ => ?_
        exact .access (fun _ => rfl) fun _ => .done _
  cases c with
  | lookup k => exact hlookup k
  | get k =>
      obtain ⟨serve, heq, hfails, hserves⟩ := hlookup k
      refine ⟨fun r => (serve r).bind fun found => .done (found.map Entry.value), ?_, ?_, ?_⟩
      · intro listeners
        rw [← Program.bind_assoc, ← heq]
        rfl
      · intro failure
        exact congrArg (Program.bind · fun found => .done (found.map Entry.value)) (hfails failure)
      · exact fun h => (hserves h).bind fun _ => .done _
  | insert k x =>
      refine ⟨_, fun _ => rfl, fun _ => rfl, fun h => (Program.serves_logAll h _).bind fun _ => ?_⟩
      cases serializer.serialize x with
      | error _ => exact (Program.serves_logAll h [.writeDropped]).bind fun _ => .done _
      | ok bytes =>
          refine .request ?_ fun r => ?_
          · exact rfl
          · cases r with
            | error failure => exact .done _
            | ok _ => exact .access (fun _ => rfl) fun _ => .done _
  | remove k =>
      refine ⟨_, fun _ => rfl, fun _ => rfl, fun h => .request rfl fun r => ?_⟩
      rcases r with failure | present
      · exact .done _
      · cases present with
        | false => exact .done _
        | true => exact .access (fun _ => rfl) fun _ => .done _
  | clear => exact ⟨_, fun _ => rfl, fun _ => rfl, fun h => .request rfl fun _ => .done _⟩
  | evictStale | evictionRequired => exact hc.elim

/-! ## The stages of connecting -/

namespace Conversation

/-- How far an operation has got. -/
inductive Stage where
  /-- It has not looked for an open provider yet. -/
  | fresh
  /-- It has found none. -/
  | closed
  /-- It has opened one. -/
  | opened (h : Handle)
  /-- It has put the handle in place. -/
  | published (h : Handle)
  /-- The provider will not report. -/
  | withdrawing (h : Handle) (failure : CacheFailure)
  /-- There is nothing in place, and it fails. -/
  | refusing (failure : CacheFailure)
  /-- It has a provider to use. -/
  | serving (h : Handle)

/-- What an operation does from a stage on. -/
inductive Plan (c : Call K V) : Stage → Program Connection K V c.Answer → Prop where
  | pass (a : c.Answer) (alone : ¬ c.NeedsProvider) : Plan c .fresh (.done a)
  | look {γ : Type} {change : Connection → γ × Connection}
      {next : γ → Program Connection K V c.Answer} (keeps : ∀ s, (change s).2 = s)
      (none : ∀ s, s.handle = none → Plan c .closed (next (change s).1))
      (some : ∀ s h, s.handle = some h → Plan c (.serving h) (next (change s).1)) :
      Plan c .fresh (.step (.access change) next)
  | openProvider {next : Except CacheFailure Handle → Program Connection K V c.Answer}
      (fails : ∀ failure, Plan c (.refusing failure) (next (.error failure)))
      (opens : ∀ h, Plan c (.opened h) (next (.ok h))) :
      Plan c .closed (.step .openProvider next)
  | publish {γ : Type} {h : Handle} {change : Connection → γ × Connection}
      {next : γ → Program Connection K V c.Answer} (puts : ∀ s, (change s).2.handle = some h)
      (rest : ∀ b, Plan c (.published h) (next b)) :
      Plan c (.opened h) (.step (.access change) next)
  | register {h : Handle} {next : Except CacheFailure Unit → Program Connection K V c.Answer}
      (fails : ∀ failure, Plan c (.withdrawing h failure) (next (.error failure)))
      (agrees : Plan c (.serving h) (next (.ok ()))) :
      Plan c (.published h) (.step (.register h) next)
  | withdraw {γ : Type} {h : Handle} {failure : CacheFailure} {change : Connection → γ × Connection}
      {next : γ → Program Connection K V c.Answer} (takes : ∀ s, (change s).2.handle = none)
      (rest : ∀ b, Plan c (.refusing failure) (next b)) :
      Plan c (.withdrawing h failure) (.step (.access change) next)
  | refuse (failure : CacheFailure) : Plan c (.refusing failure) (.done (c.refusal failure))
  | serve {h : Handle} {p : Program Connection K V c.Answer} (serves : p.Serves h) :
      Plan c (.serving h) p
  | log {stage : Stage} {e : LogEvent} {next : Unit → Program Connection K V c.Answer}
      (rest : Plan c stage (next ())) : Plan c stage (.step (.log e) next)

/-- Every operation follows the plan from its beginning on. -/
theorem plan_program (serializer : Serializer V) (listeners : Nat) (c : Call K V) :
    Plan c .fresh ((Connection.operations serializer listeners).program c) := by
  by_cases hc : c.NeedsProvider
  · obtain ⟨serve, heq, hfails, hserves⟩ := Connection.program_eq serializer hc
    have hrefuse : ∀ failure, Plan c (.refusing failure) (serve (.error failure)) := by
      intro failure
      rw [hfails]
      exact .refuse failure
    rw [heq]
    refine .look (fun _ => rfl) (fun s hs => ?_) (fun s h hs => ?_)
    · simp only [hs]
      refine .openProvider (fun failure => .log (hrefuse failure)) fun h => ?_
      refine .publish (fun _ => rfl) fun _ => .register (fun failure => ?_) ?_
      · exact .log (.withdraw (fun _ => rfl) fun _ => hrefuse failure)
      · exact .log (.serve (hserves h))
    · simp only [hs]
      exact .serve (hserves h)
  · cases c with
    | evictStale | evictionRequired => exact .pass _ hc
    | _ => exact absurd trivial hc

/-- What an operation at a stage found when it began, and has exchanged since. -/
def Stage.Reached (found : Option Handle) (trail : List (Exchange K V)) : Stage → Prop
  | fresh => trail = []
  | closed => found = none ∧ trail = []
  | opened h | published h => found = none ∧ trail = [⟨.openProvider, .ok h⟩]
  | withdrawing h failure =>
    found = none ∧ trail = [⟨.openProvider, .ok h⟩, ⟨.register h, .error failure⟩]
  | refusing failure =>
    found = none ∧ (trail = [⟨.openProvider, .error failure⟩] ∨
      ∃ h, trail = [⟨.openProvider, .ok h⟩, ⟨.register h, .error failure⟩])
  | serving h =>
    ∃ own : List (Exchange K V), (∀ e ∈ own, e.Uses h) ∧ (found = some h ∧ trail = own ∨
      found = none ∧ trail = ⟨.openProvider, .ok h⟩ :: ⟨.register h, .ok ()⟩ :: own)

/-- The handle in place while an operation is at a stage. -/
def Stage.handle (found : Option Handle) : Stage → Option Handle
  | fresh => found
  | closed | opened _ | refusing _ => none
  | published h | withdrawing h _ | serving h => some h

namespace Frame

/-- The operation is at some stage, and the handle in place is that of the stage. -/
def Sound (handle : Option Handle) : Frame K V → Prop
  | operation o trail doing =>
    ∃ stage : Stage, Plan o.call stage doing.program ∧ stage.Reached o.found.handle trail ∧
      handle = stage.handle o.found.handle
  | listening _ _ => True

/-- The frame is that of an operation. -/
def IsOperation : Frame K V → Prop
  | operation _ _ _ => True
  | listening _ _ => False

/-- The operation found no open provider. -/
def BeganClosed : Frame K V → Prop
  | operation o _ _ => o.found.handle = none
  | listening _ _ => False

/-- The operation found this handle, or has seen its provider agree to report. -/
def Settled (h : Handle) : Frame K V → Prop
  | operation o trail _ => o.found.handle = some h ∨ ∃ e ∈ trail, e.registered? = some h
  | listening _ _ => True

/-- The operation has neither found a provider nor seen one agree. -/
def Connecting (f : Frame K V) : Prop := ∀ h, ¬ f.Settled h

end Frame

namespace Stage.Reached

variable {stage : Stage} {found : Option Handle} {trail : List (Exchange K V)} {h : Handle}

theorem mem_of_serving (hr : (Stage.serving h).Reached found trail) {e : Exchange K V}
    (he : e ∈ trail) : e = ⟨.openProvider, .ok h⟩ ∨ e = ⟨.register h, .ok ()⟩ ∨ e.Uses h := by
  obtain ⟨own, huses, ⟨-, rfl⟩ | ⟨-, rfl⟩⟩ := hr
  · exact .inr (.inr (huses e he))
  · rcases List.mem_cons.mp he with rfl | he
    · exact .inl rfl
    · rcases List.mem_cons.mp he with rfl | he
      · exact .inr (.inl rfl)
      · exact .inr (.inr (huses e he))

theorem settled_of_serving (hr : (Stage.serving h).Reached found trail) :
    found = some h ∨ ∃ e ∈ trail, e.registered? = some h := by
  obtain ⟨own, -, ⟨hfound, -⟩ | ⟨-, rfl⟩⟩ := hr
  · exact .inl hfound
  · exact .inr ⟨⟨.register h, .ok ()⟩, by simp, rfl⟩

theorem snoc_of_serving (hr : (Stage.serving h).Reached found trail) {e : Exchange K V}
    (he : e.Uses h) : (Stage.serving h).Reached found (trail ++ [e]) := by
  obtain ⟨own, huses, hr⟩ := hr
  refine ⟨own ++ [e], List.forall_mem_append.mpr ⟨huses, List.forall_mem_singleton.mpr he⟩, ?_⟩
  rcases hr with ⟨hfound, rfl⟩ | ⟨hfound, rfl⟩
  · exact .inl ⟨hfound, rfl⟩
  · exact .inr ⟨hfound, rfl⟩

/-- An operation that is settled has not looked yet, or is being served. -/
theorem of_settled (hr : stage.Reached found trail)
    (hs : found = some h ∨ ∃ e ∈ trail, e.registered? = some h) :
    stage = .fresh ∧ found = some h ∨ stage = .serving h := by
  cases stage with
  | fresh =>
      obtain rfl : trail = [] := hr
      simpa using hs
  | closed =>
      obtain ⟨rfl, rfl⟩ := hr
      simp at hs
  | opened h' | published h' | withdrawing h' failure =>
      obtain ⟨rfl, rfl⟩ := hr
      simp [Exchange.registered?] at hs
  | refusing failure =>
      obtain ⟨rfl, rfl | ⟨h', rfl⟩⟩ := hr
      · simp [Exchange.registered?] at hs
      · simp [Exchange.registered?] at hs
  | serving h' =>
      refine .inr ?_
      rcases hs with hfound | ⟨e, he, hreg⟩
      · obtain ⟨own, -, ⟨hfound', -⟩ | ⟨hnone, -⟩⟩ := hr
        · rw [Option.some.inj (hfound.symm.trans hfound')]
        · cases hfound.symm.trans hnone
      · rcases hr.mem_of_serving he with rfl | rfl | huses
        · cases hreg
        · rw [Option.some.inj hreg]
        · obtain ⟨-, -, hnone, -⟩ := huses.ordinary
          cases hnone.symm.trans hreg

/-- Only an operation that is about to fail has been told of a failure. -/
theorem of_refused (hr : stage.Reached found trail) {failure : CacheFailure}
    (hf : ∃ e ∈ trail, e.refused? = some failure) :
    stage = .refusing failure ∨ ∃ h, stage = .withdrawing h failure := by
  cases stage with
  | fresh =>
      obtain rfl : trail = [] := hr
      simp at hf
  | closed =>
      obtain ⟨-, rfl⟩ := hr
      simp at hf
  | opened h' | published h' =>
      obtain ⟨-, rfl⟩ := hr
      simp [Exchange.refused?, Exchange.failure?] at hf
  | withdrawing h' failure' =>
      obtain ⟨-, rfl⟩ := hr
      exact .inr ⟨h', by simpa [Exchange.refused?, Exchange.failure?] using hf⟩
  | refusing failure' =>
      refine .inl ?_
      obtain ⟨-, rfl | ⟨h', rfl⟩⟩ := hr
      · simpa [Exchange.refused?, Exchange.failure?] using hf
      · simpa [Exchange.refused?, Exchange.failure?] using hf
  | serving h' =>
      obtain ⟨e, he, href⟩ := hf
      rcases hr.mem_of_serving he with rfl | rfl | huses
      · cases href
      · cases href
      · obtain ⟨-, -, -, hnone⟩ := huses.ordinary
        cases hnone.symm.trans href

end Stage.Reached

/-- Whoever waits for an open provider has its handle in place. -/
theorem Frame.Sound.handle_of_free {f : Frame K V} {handle : Option Handle} (hs : f.Sound handle)
    (hfree : f.Free) (hop : f.IsOperation) : ∃ h, handle = some h := by
  cases f with
  | listening => exact hop.elim
  | operation o trail doing =>
    cases doing with
    | running => exact hfree.elim
    | waiting action next outgoing =>
      obtain ⟨stage, hplan, -, hh⟩ := hs
      cases hplan with
      | register => exact ⟨_, hh⟩
      | serve => exact ⟨_, hh⟩
      | _ => cases hfree

namespace Frame.Sound

variable {o : Begun K V} {trail : List (Exchange K V)} {γ : Type} {action : Action Connection K V γ}
  {next : γ → Program Connection K V o.call.Answer} {outgoing : action.isOutgoing}
  {handle : Option Handle}

/-- What an operation does for itself changes the handle only as long as it is not settled. -/
theorem act {c : Connection} {done : γ × Connection}
    (hs : (operation o trail (.running (.step action next))).Sound c.handle)
    (own : action.own? c = some done) :
    (operation o trail (.running (next done.1))).Sound done.2.handle ∧
      (done.2.handle = c.handle ∨
        (operation o trail (.running (.step action next))).Connecting) := by
  obtain ⟨stage, hplan, hreached, hh⟩ := hs
  cases hplan with
  | look keeps hnone hsome =>
      cases own
      have hsame := congrArg Connection.handle (keeps c)
      refine ⟨?_, .inl hsame⟩
      have hfound : c.handle = o.found.handle := hh
      obtain rfl : trail = [] := hreached
      cases hc : c.handle with
      | none => exact ⟨.closed, hnone c hc, ⟨hfound ▸ hc, rfl⟩, hsame.trans hc⟩
      | some h =>
          refine ⟨.serving h, hsome c h hc, ⟨[], List.forall_mem_nil _, ?_⟩, hsame.trans hc⟩
          exact .inl ⟨hfound ▸ hc, rfl⟩
  | @publish _ h _ _ puts rest =>
      cases own
      refine ⟨⟨.published h, rest _, hreached, puts c⟩, .inr fun h' hsettled => ?_⟩
      simpa using hreached.of_settled hsettled
  | @withdraw _ h failure _ _ takes rest =>
      cases own
      refine ⟨⟨.refusing failure, rest _, ?_, takes c⟩, .inr fun h' hsettled => ?_⟩
      · exact ⟨hreached.1, .inr ⟨h, hreached.2⟩⟩
      · simpa using hreached.of_settled hsettled
  | @serve h _ serves =>
      cases serves with
      | access keeps rest =>
          cases own
          exact ⟨⟨.serving h, .serve (rest _), hreached, (keeps c).trans hh⟩, .inl (keeps c)⟩
      | log rest =>
          cases own
          exact ⟨⟨.serving h, .serve rest, hreached, hh⟩, .inl rfl⟩
      | request uses =>
          rw [uses.own?_eq c] at own
          cases own
  | log rest =>
      cases own
      exact ⟨⟨stage, rest, hreached, hh⟩, .inl rfl⟩
  | openProvider | register => cases own

/-- A settled operation asks for nothing but what the provider is there for. -/
theorem uses_of_settled (hs : (operation o trail (.waiting action next outgoing)).Sound handle)
    {h : Handle} (hsettled : (operation o trail (.waiting action next outgoing)).Settled h) :
    action.Uses h := by
  obtain ⟨stage, hplan, hreached, hh⟩ := hs
  rcases hreached.of_settled hsettled with ⟨rfl, -⟩ | rfl
  · cases hplan with
    | look | log => cases outgoing
  · cases hplan with
    | log => cases outgoing
    | serve serves =>
        cases serves with
        | access | log => cases outgoing
        | request uses => exact uses

/-- Whatever the reply is, the operation is ready for it. -/
theorem replied (hs : (operation o trail (.waiting action next outgoing)).Sound handle)
    (answer : γ) :
    (operation o (trail ++ [⟨action, answer⟩]) (.running (next answer))).Sound handle := by
  obtain ⟨stage, hplan, hreached, hh⟩ := hs
  cases hplan with
  | openProvider fails opens =>
      obtain ⟨hfound, rfl⟩ := hreached
      cases answer with
      | error failure => exact ⟨.refusing failure, fails failure, ⟨hfound, .inl rfl⟩, hh⟩
      | ok h => exact ⟨.opened h, opens h, ⟨hfound, rfl⟩, hh⟩
  | @register h _ fails agrees =>
      obtain ⟨hfound, rfl⟩ := hreached
      cases answer with
      | error failure => exact ⟨.withdrawing h failure, fails failure, ⟨hfound, rfl⟩, hh⟩
      | ok _ =>
          exact ⟨.serving h, agrees, ⟨[], List.forall_mem_nil _, .inr ⟨hfound, rfl⟩⟩, hh⟩
  | @serve h _ serves =>
      cases serves with
      | access | log => cases outgoing
      | request uses rest =>
          exact ⟨.serving h, .serve (rest answer), hreached.snoc_of_serving uses, hh⟩
  | look | publish | withdraw | log => cases outgoing

/-- An operation ends without having looked for a provider, or it has failed, or it has a provider
to use. -/
theorem of_done {a : o.call.Answer} (hs : (operation o trail (.running (.done a))).Sound handle) :
    (¬ o.call.NeedsProvider ∧ trail = [] ∧ handle = o.found.handle) ∨
      (∃ failure, a = o.call.refusal failure ∧
        (Stage.refusing failure).Reached o.found.handle trail ∧ handle = none) ∨
      ∃ h, (Stage.serving h).Reached o.found.handle trail ∧ handle = some h := by
  obtain ⟨stage, hplan, hreached, hh⟩ := hs
  cases hplan with
  | pass _ alone => exact .inl ⟨alone, hreached, hh⟩
  | refuse failure => exact .inr (.inl ⟨failure, rfl, hreached, hh⟩)
  | serve => exact .inr (.inr ⟨_, hreached, hh⟩)

/-- A provider that agrees to report is the one in place, and it was asked by an operation that was
not settled before. -/
theorem of_registered (hs : (operation o trail (.waiting action next outgoing)).Sound handle)
    {answer : γ} {h : Handle} (hr : (Exchange.mk action answer).registered? = some h) :
    handle = some h ∧ (operation o trail (.waiting action next outgoing)).Connecting := by
  have hnot : (operation o trail (.waiting action next outgoing)).Connecting := by
    intro h' hsettled
    have huses : (Exchange.mk action answer).Uses h' := hs.uses_of_settled hsettled
    obtain ⟨-, -, hnone, -⟩ := huses.ordinary
    cases hnone.symm.trans hr
  obtain ⟨stage, hplan, hreached, hh⟩ := hs
  cases hplan with
  | register =>
      refine ⟨?_, hnot⟩
      cases answer with
      | error => cases hr
      | ok => exact hh.trans hr
  | openProvider => cases hr
  | serve => exact absurd hreached.settled_of_serving (hnot _)
  | look | publish | withdraw | log => cases outgoing

/-- An operation that finds an open provider has to do with no other. -/
theorem of_found {doing : Doing K V o.call.Answer} {h : Handle}
    (hs : (operation o trail doing).Sound handle) (hfound : o.found.handle = some h) :
    handle = some h ∧ (∀ e ∈ trail, e.Uses h) ∧ doing.Uses h := by
  have huses : doing.Uses h := by
    cases doing with
    | running => trivial
    | waiting => exact hs.uses_of_settled (.inl hfound)
  obtain ⟨stage, -, hreached, hh⟩ := hs
  rcases hreached.of_settled (.inl hfound) with ⟨rfl, -⟩ | rfl
  · obtain rfl : trail = [] := hreached
    exact ⟨hh.trans hfound, List.forall_mem_nil _, huses⟩
  · obtain ⟨own, hown, ⟨-, rfl⟩ | ⟨hnone, -⟩⟩ := hreached
    · exact ⟨hh, hown, huses⟩
    · cases hfound.symm.trans hnone

/-- An operation that found no provider has opened it once, and has asked the provider that it got,
if it got one, to report. -/
theorem opens {a : o.call.Answer} (hs : (operation o trail (.running (.done a))).Sound handle)
    (hneeds : o.call.NeedsProvider) (hclosed : o.found.handle = none) :
    trail.countP Exchange.isOpening = 1 ∧
      ((∃ failure, ⟨.openProvider, .error failure⟩ ∈ trail ∧
          trail.filterMap Exchange.registering? = []) ∨
        ∃ h, ⟨.openProvider, .ok h⟩ ∈ trail ∧ trail.filterMap Exchange.registering? = [h]) := by
  rcases hs.of_done with ⟨halone, -⟩ | ⟨failure, -, hreached, -⟩ | ⟨h, hreached, -⟩
  · exact absurd hneeds halone
  · obtain ⟨-, rfl | ⟨h, rfl⟩⟩ := hreached
    · exact ⟨rfl, .inl ⟨failure, List.mem_cons_self, rfl⟩⟩
    · exact ⟨rfl, .inr ⟨h, List.mem_cons_self, rfl⟩⟩
  · obtain ⟨own, huses, ⟨hopen, -⟩ | ⟨-, rfl⟩⟩ := hreached
    · cases hopen.symm.trans hclosed
    · have hopening : own.countP Exchange.isOpening = 0 := by
        refine List.countP_eq_zero.mpr fun e he => ?_
        rw [(huses e he).ordinary.1]
        exact Bool.false_ne_true
      have hregistering : own.filterMap Exchange.registering? = [] :=
        List.filterMap_eq_nil_iff.mpr fun e he => (huses e he).ordinary.2.1
      refine ⟨?_, .inr ⟨h, List.mem_cons_self, ?_⟩⟩
      · rw [List.countP_cons, List.countP_cons, hopening]
        rfl
      · exact congrArg (h :: ·) hregistering

/-- An operation that has been told of a failure has failed in the same way, asked for nothing more,
and left no handle in place. -/
theorem fails {a : o.call.Answer} (hs : (operation o trail (.running (.done a))).Sound handle)
    {failure : CacheFailure} (hf : ∃ e ∈ trail, e.refused? = some failure) :
    a = o.call.refusal failure ∧ (∀ e ∈ trail, ∀ h, ¬ e.Uses h) ∧ handle = none := by
  rcases hs.of_done with ⟨-, rfl, -⟩ | ⟨failure', ha, hreached, hh⟩ | ⟨h, hreached, -⟩
  · simp at hf
  · obtain rfl : failure' = failure := by simpa using hreached.of_refused hf
    refine ⟨ha, fun e he h => ?_, hh⟩
    obtain ⟨-, rfl | ⟨h', rfl⟩⟩ := hreached
    · rw [List.mem_singleton] at he
      rw [he]
      exact id
    · rw [List.mem_cons, List.mem_singleton] at he
      rcases he with rfl | rfl
      · exact id
      · exact id
  · simpa using hreached.of_refused hf

end Frame.Sound

/-- An operation that is told of a failure passes it on, and nothing can come between. -/
theorem leads_refusal (serializer : Serializer V) (listeners : Nat) {o : Begun K V}
    {trail : List (Exchange K V)} {below : List (Frame K V)} {failure : CacheFailure}
    {stage : Stage} {rest : Program Connection K V o.call.Answer} (hplan : Plan o.call stage rest)
    (hstage : stage = .refusing failure ∨ ∃ h, stage = .withdrawing h failure)
    {s : Conversation K V} (here : s.stack = .operation o trail (.running rest) :: below) :
    ∃ left : Connection, Leads serializer listeners s { s with
      connection := left
      stack := below
      history := s.history ++ [.answered ⟨o, trail, o.call.refusal failure, left⟩] } := by
  induction hplan generalizing s with
  | @withdraw _ _ _ change next takes rest ih =>
      obtain ⟨left, hl⟩ := ih (change s.connection).1 (by simpa using hstage)
        (s := { s with
          connection := (change s.connection).2
          stack := .operation o trail (.running (next (change s.connection).1)) :: below }) rfl
      exact ⟨left, .head (.act here rfl) hl⟩
  | refuse f =>
      obtain rfl : f = failure := by simpa using hstage
      exact ⟨s.connection, .single (.answer here)⟩
  | log _ ih =>
      obtain ⟨left, hl⟩ := ih hstage
        (s := { s with stack := .operation o trail (.running _) :: below }) rfl
      exact ⟨left, .head (.act here rfl) hl⟩
  | _ => simp at hstage

end Conversation

end GenerationalCache
