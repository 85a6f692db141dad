import GenerationalCache.Proofs.Connecting

/-!
# Opening is retried until it succeeds, and happens once

Of all that an operation does, only connecting can change the handle in place. So the argument is
about the operations that are connecting. Below such an operation there is no other: operations
begin where a request is being made, and while one is made there is a handle in place, which the new
operation finds. Hence at most one operation is connecting at any moment, the handle in place is its
own business until its provider has agreed to report, and from then on nobody's.
-/

namespace GenerationalCache

variable {K V : Type}

namespace Conversation

/-- The provider has agreed to report. -/
def Event.registered? : Event K V → Option Handle
  | replied e => e.registered?
  | _ => none

/-- Nothing is done with any provider but this one, nothing is opened, and nobody is asked to
report. -/
def Event.Keeps (h : Handle) : Event K V → Prop
  | began o => o.found.handle = some h
  | asked action => action.Uses h
  | replied e => e.Uses h
  | answered a => a.left.handle = some h
  | _ => True

/-- The frame of an operation that is about to answer. -/
def Answered.frame (a : Answered K V) : Frame K V :=
  .operation a.toBegun a.trail (.running (.done a.answer))

/-- What holds at every moment of every run. -/
structure Sound (s : Conversation K V) : Prop where
  /-- Every operation in progress is at some stage. -/
  frames : ∀ f ∈ s.stack, f.Sound s.connection.handle
  /-- Below an operation that found no open provider there is no other operation. -/
  alone : s.stack.Pairwise fun f below => f.BeganClosed → ¬ below.IsOperation
  /-- So was every operation when it answered. -/
  answered : ∀ a, .answered a ∈ s.history → a.frame.Sound a.left.handle
  /-- A handle in place is that of a provider that reports, or an operation is connecting. -/
  owned : ∀ h, s.connection.handle = some h →
    (∃ e ∈ s.history, e.registered? = some h) ∨ ∃ f ∈ s.stack, f.Connecting
  /-- When a provider has agreed to report, its handle is in place, and operations are settled. -/
  settled : ∀ e ∈ s.history, ∀ h, e.registered? = some h →
    s.connection.handle = some h ∧ ∀ f ∈ s.stack, f.Settled h
  /-- And nothing has happened since that would change this. -/
  kept : s.history.Pairwise fun e later => ∀ h, e.registered? = some h → later.Keeps h

theorem sound_start : ({} : Conversation K V).Sound where
  frames := by simp
  alone := .nil
  answered := by simp
  owned := by simp
  settled := by simp
  kept := .nil

/-- Something happens that the stack does not show. -/
theorem Sound.note {s : Conversation K V} (hs : s.Sound) (e : Event K V)
    (hregistered : e.registered? = none)
    (hanswered : ∀ a, e = .answered a → a.frame.Sound a.left.handle)
    (hkeeps : ∀ h, s.connection.handle = some h → (∀ f ∈ s.stack, f.Settled h) → e.Keeps h) :
    ({ s with history := s.history ++ [e] } : Conversation K V).Sound where
  frames := hs.frames
  alone := hs.alone
  answered a ha := by
    rcases List.mem_append.mp ha with ha | ha
    · exact hs.answered a ha
    · exact hanswered a (List.mem_singleton.mp ha).symm
  owned h hh := by
    rcases hs.owned h hh with ⟨e', he', hreg⟩ | hf
    · exact .inl ⟨e', List.mem_append_left _ he', hreg⟩
    · exact .inr hf
  settled e' he' h hreg := by
    rcases List.mem_append.mp he' with he' | he'
    · exact hs.settled e' he' h hreg
    · rw [List.mem_singleton.mp he', hregistered] at hreg
      cases hreg
  kept := by
    refine List.pairwise_append.mpr ⟨hs.kept, List.pairwise_singleton _ _, ?_⟩
    intro e' he' later hlater h hreg
    obtain rfl := List.mem_singleton.mp hlater
    obtain ⟨hh, hf⟩ := hs.settled e' he' h hreg
    exact hkeeps h hh hf

/-- Below an operation that is connecting there are only calls of listeners. -/
theorem Sound.listening_below {s : Conversation K V} (hs : s.Sound) {o : Begun K V}
    {trail : List (Exchange K V)} {doing : Doing K V o.call.Answer} {below : List (Frame K V)}
    (here : s.stack = .operation o trail doing :: below)
    (hconnecting : (Frame.operation o trail doing).Connecting) :
    ∀ f ∈ below, ∃ d later, f = .listening d later := by
  intro f hf
  have hclosed : o.found.handle = none :=
    Option.eq_none_iff_forall_ne_some.mpr fun h hh => hconnecting h (.inl hh)
  have halone := hs.alone
  rw [here, List.pairwise_cons] at halone
  cases f with
  | operation => exact absurd trivial (halone.1 _ hf hclosed)
  | listening d later => exact ⟨d, later, rfl⟩

/-- The operation that runs goes on. It may change the handle only as long as it is not settled. -/
theorem Sound.goOn {s : Conversation K V} (hs : s.Sound) {o : Begun K V}
    {trail trail' : List (Exchange K V)} {doing doing' : Doing K V o.call.Answer}
    {below : List (Frame K V)} (here : s.stack = .operation o trail doing :: below)
    {connection : Connection} (hsound : (Frame.operation o trail' doing').Sound connection.handle)
    (hsettled : ∀ h, (∃ e ∈ trail', e.registered? = some h) ↔ ∃ e ∈ trail, e.registered? = some h)
    (hhandle : connection.handle = s.connection.handle ∨
      (Frame.operation o trail doing).Connecting) :
    ({ s with connection, stack := .operation o trail' doing' :: below } :
      Conversation K V).Sound := by
  have hmem : Frame.operation o trail doing ∈ s.stack := here ▸ List.mem_cons_self
  have hbelow : ∀ f ∈ below, f ∈ s.stack := fun f hf => here ▸ List.mem_cons_of_mem _ hf
  have hiff : ∀ h, (Frame.operation o trail' doing').Settled h ↔
      (Frame.operation o trail doing).Settled h := fun h => or_congr_right (hsettled h)
  have hpair := hs.alone
  rw [here, List.pairwise_cons] at hpair
  refine ⟨?_, ?_, hs.answered, ?_, ?_, hs.kept⟩
  · intro f hf
    rcases List.mem_cons.mp hf with rfl | hf
    · exact hsound
    · rcases hhandle with hsame | hconnecting
      · exact hsame ▸ hs.frames f (hbelow f hf)
      · -- another handle is in place, but nobody else depends on it
        obtain ⟨d, later, rfl⟩ := hs.listening_below here hconnecting f hf
        trivial
  · exact List.pairwise_cons.mpr hpair
  · intro h hh
    rcases hhandle with hsame | hconnecting
    · rcases hs.owned h (hsame ▸ hh) with hreg | ⟨f, hf, hconnecting⟩
      · exact .inl hreg
      · rw [here] at hf
        rcases List.mem_cons.mp hf with rfl | hf
        · exact .inr ⟨_, List.mem_cons_self, fun h => (hiff h).not.mpr (hconnecting h)⟩
        · exact .inr ⟨f, List.mem_cons_of_mem _ hf, hconnecting⟩
    · exact .inr ⟨_, List.mem_cons_self, fun h => (hiff h).not.mpr (hconnecting h)⟩
  · intro e he h hreg
    obtain ⟨hh, hf⟩ := hs.settled e he h hreg
    refine ⟨?_, fun f hmem' => ?_⟩
    · rcases hhandle with hsame | hconnecting
      · exact hsame.trans hh
      · exact absurd (hf _ hmem) (hconnecting h)
    · rcases List.mem_cons.mp hmem' with rfl | hmem'
      · exact (hiff h).mpr (hf _ hmem)
      · exact hf f (hbelow f hmem')

/-- Something begins. -/
theorem Sound.push {s : Conversation K V} (hs : s.Sound) (f : Frame K V)
    (hsound : f.Sound s.connection.handle)
    (halone : f.BeganClosed → ∀ below ∈ s.stack, ¬ below.IsOperation)
    (hsettled : ∀ h, s.connection.handle = some h → f.Settled h) :
    ({ s with stack := f :: s.stack } : Conversation K V).Sound := by
  refine ⟨?_, ?_, hs.answered, ?_, ?_, hs.kept⟩
  · exact List.forall_mem_cons.mpr ⟨hsound, hs.frames⟩
  · exact List.pairwise_cons.mpr ⟨fun below hb hc => halone hc below hb, hs.alone⟩
  · intro h hh
    rcases hs.owned h hh with hreg | ⟨f', hf', hconnecting⟩
    · exact .inl hreg
    · exact .inr ⟨f', List.mem_cons_of_mem _ hf', hconnecting⟩
  · intro e he h hreg
    obtain ⟨hh, hf⟩ := hs.settled e he h hreg
    exact ⟨hh, List.forall_mem_cons.mpr ⟨hsettled h hh, hf⟩⟩

/-- Something ends. -/
theorem Sound.pop {s : Conversation K V} (hs : s.Sound) {f : Frame K V} {below : List (Frame K V)}
    (here : s.stack = f :: below) (hsettled : ∀ h, s.connection.handle = some h → f.Settled h) :
    ({ s with stack := below } : Conversation K V).Sound := by
  obtain ⟨connection, stack, history⟩ := s
  obtain rfl : stack = f :: below := here
  refine ⟨?_, hs.alone.tail, hs.answered, ?_, ?_, hs.kept⟩
  · exact (List.forall_mem_cons.mp hs.frames).2
  · intro h hh
    rcases hs.owned h hh with hreg | ⟨f', hf', hconnecting⟩
    · exact .inl hreg
    · rcases List.mem_cons.mp hf' with rfl | hf'
      · exact absurd (hsettled h hh) (hconnecting h)
      · exact .inr ⟨f', hf', hconnecting⟩
  · intro e he h hreg
    obtain ⟨hh, hf⟩ := hs.settled e he h hreg
    exact ⟨hh, (List.forall_mem_cons.mp hf).2⟩

theorem Sound.tell {s : Conversation K V} {below : List (Frame K V)}
    (hs : ({ s with stack := below } : Conversation K V).Sound) (ds : List (Delivery V)) :
    (s.tell below ds).Sound := by
  cases ds with
  | nil => exact hs
  | cons d later =>
      have hn := hs.note (.told d) rfl (fun a ha => by cases ha) fun _ _ _ => trivial
      exact hn.push (.listening d later) trivial False.elim fun _ _ => trivial

/-- A provider agrees to report. -/
theorem Sound.agree {s : Conversation K V} (hs : s.Sound) {o : Begun K V}
    {trail : List (Exchange K V)} {γ : Type} {action : Action Connection K V γ}
    {next : γ → Program Connection K V o.call.Answer} {outgoing : action.isOutgoing}
    {below : List (Frame K V)}
    (here : s.stack = .operation o trail (.waiting action next outgoing) :: below) {answer : γ}
    {h : Handle} (hr : (Exchange.mk action answer).registered? = some h) :
    ({ s with
      stack := .operation o (trail ++ [⟨action, answer⟩]) (.running (next answer)) :: below
      history := s.history ++ [.replied ⟨action, answer⟩] } : Conversation K V).Sound := by
  have htop : Frame.operation o trail (.waiting action next outgoing) ∈ s.stack :=
    here ▸ List.mem_cons_self
  obtain ⟨hhandle, hnot⟩ := (hs.frames _ htop).of_registered hr
  have hpair := hs.alone
  rw [here, List.pairwise_cons] at hpair
  have hfirst : ∀ e ∈ s.history, ∀ h', e.registered? ≠ some h' :=
    fun e he h' hreg => hnot h' ((hs.settled e he h' hreg).2 _ htop)
  refine ⟨?_, ?_, ?_, ?_, ?_, ?_⟩
  · refine List.forall_mem_cons.mpr ⟨(hs.frames _ htop).replied answer, fun f hf => ?_⟩
    exact hs.frames f (here ▸ List.mem_cons_of_mem _ hf)
  · exact List.pairwise_cons.mpr hpair
  · intro a ha
    rcases List.mem_append.mp ha with ha | ha
    · exact hs.answered a ha
    · cases List.mem_singleton.mp ha
  · intro h' hh
    refine .inl ⟨_, List.mem_append_right _ List.mem_cons_self, ?_⟩
    exact hr.trans (hhandle.symm.trans hh)
  · intro e he h' hreg
    rcases List.mem_append.mp he with he | he
    · exact absurd hreg (hfirst e he h')
    · obtain rfl := List.mem_singleton.mp he
      refine ⟨hhandle.trans (hr.symm.trans hreg), List.forall_mem_cons.mpr ⟨?_, ?_⟩⟩
      · exact .inr ⟨_, List.mem_append_right _ List.mem_cons_self, hreg⟩
      · intro f hf
        obtain ⟨d, later, rfl⟩ := hs.listening_below here hnot f hf
        trivial
  · refine List.pairwise_append.mpr ⟨hs.kept, List.pairwise_singleton _ _, ?_⟩
    exact fun e he _ _ h' hreg => absurd hreg (hfirst e he h')

/-- **Every step keeps the state sound.** -/
theorem sound_step {serializer : Serializer V} {listeners : Nat} {s s' : Conversation K V}
    (hs : s.Sound) (hstep : Step serializer listeners s s') : s'.Sound := by
  cases hstep with
  | begin c free =>
      have hn := hs.note (.began ⟨c, s.connection⟩) rfl (fun a ha => by cases ha) fun h hh _ => hh
      refine hn.push _ ⟨.fresh, plan_program serializer listeners c, rfl, rfl⟩ ?_ ?_
      · intro hclosed f hf hop
        obtain ⟨h, hh⟩ := (hs.frames f hf).handle_of_free (free f hf) hop
        cases hh.symm.trans hclosed
      · exact fun h hh => .inl hh
  | act here own =>
      obtain ⟨hsound, hhandle⟩ := (hs.frames _ (here ▸ List.mem_cons_self)).act own
      exact hs.goOn here hsound (fun _ => .rfl) hhandle
  | @ask o trail β action next below here outgoing =>
      have htop : Frame.operation o trail (.running (.step action next)) ∈ s.stack :=
        here ▸ List.mem_cons_self
      have hrunning := hs.frames _ htop
      have hwaiting : (Frame.operation o trail (.waiting action next outgoing)).Sound _ := hrunning
      have hn := hs.note (.asked action) rfl (fun a ha => by cases ha) fun h _ hsettled =>
        hwaiting.uses_of_settled (hsettled (.operation o trail (.running _)) htop)
      exact hn.goOn here hwaiting (fun _ => .rfl) (.inl rfl)
  | @reply o trail β action next outgoing below here answer =>
      have htop : Frame.operation o trail (.waiting action next outgoing) ∈ s.stack :=
        here ▸ List.mem_cons_self
      cases hr : (Exchange.mk action answer).registered? with
      | some h => exact hs.agree here hr
      | none =>
          have hn := hs.note (.replied ⟨action, answer⟩) hr (fun a ha => by cases ha)
            fun h _ hsettled => (hs.frames _ htop).uses_of_settled (hsettled _ htop)
          refine hn.goOn here ((hs.frames _ htop).replied answer) (fun h => ?_) (.inl rfl)
          simp [or_and_right, exists_or, hr]
  | report kind changes free =>
      refine (hs.note (.reported kind changes) rfl ?_ fun _ _ _ => trivial).tell _
      exact fun a ha => by cases ha
  | heard here => exact (hs.pop here fun _ _ => trivial).tell _
  | @answer o trail a below here =>
      have hframe := hs.frames _ (here ▸ List.mem_cons_self)
      refine (hs.note (.answered ⟨o, trail, a, s.connection⟩) rfl ?_ fun h hh _ => hh).pop here ?_
      · intro a' ha'
        cases ha'
        exact hframe
      · intro h hh
        rcases hframe.of_done with ⟨-, -, hfound⟩ | ⟨_, -, -, hnone⟩ | ⟨h', hreached, hh'⟩
        · exact .inl (hfound.symm.trans hh)
        · cases hh.symm.trans hnone
        · obtain rfl := Option.some.inj (hh.symm.trans hh')
          exact hreached.settled_of_serving

theorem Reachable.sound {serializer : Serializer V} {listeners : Nat} {s : Conversation K V}
    (h : Reachable serializer listeners s) : s.Sound := by
  induction h with
  | refl => exact sound_start
  | tail _ hstep ih => exact sound_step ih hstep

/-- Until a provider has agreed to report, only an operation has a handle in place. -/
theorem Sound.unconnected {s : Conversation K V} (hs : s.Sound)
    (hnone : ∀ e ∈ s.history, e.registered? = none) (hidle : ∀ f ∈ s.stack, ¬ f.IsOperation) :
    s.connection.handle = none := by
  refine Option.eq_none_iff_forall_ne_some.mpr fun h hh => ?_
  rcases hs.owned h hh with ⟨e, he, hreg⟩ | ⟨f, hf, hconnecting⟩
  · cases (hnone e he).symm.trans hreg
  · cases f with
    | operation => exact hidle _ hf trivial
    | listening => exact hconnecting h trivial

/-- What has begun while a provider is asked to report uses that provider. -/
theorem Sound.uses_within {s : Conversation K V} (hs : s.Sound) {inner below : List (Frame K V)}
    {o : Begun K V} {trail : List (Exchange K V)} {h : Handle}
    {next : Except CacheFailure Unit → Program Connection K V o.call.Answer}
    {outgoing : (Action.register h : Action Connection K V _).isOutgoing}
    (here : s.stack = inner ++ .operation o trail (.waiting (.register h) next outgoing) :: below) :
    s.connection.handle = some h ∧ ∀ o' trail' doing', .operation o' trail' doing' ∈ inner →
      o'.found.handle = some h ∧ (∀ e ∈ trail', e.Uses h) ∧ doing'.Uses h := by
  have hmem : Frame.operation o trail (.waiting (.register h) next outgoing) ∈ s.stack := by
    simp [here]
  have hagrees : (Exchange.mk (.register h) (.ok ()) : Exchange K V).registered? = some h := rfl
  obtain ⟨hhandle, -⟩ := (hs.frames _ hmem).of_registered hagrees
  refine ⟨hhandle, fun o' trail' doing' hinner => ?_⟩
  have halone := hs.alone
  rw [here, List.pairwise_append] at halone
  have hfound : o'.found.handle ≠ none := fun hnone =>
    halone.2.2 _ hinner _ List.mem_cons_self hnone trivial
  -- it has found some handle, and that can only be the one in place
  obtain ⟨h', hfound⟩ := Option.ne_none_iff_exists'.mp hfound
  have hmem' : Frame.operation o' trail' doing' ∈ s.stack := by simp [here, hinner]
  obtain ⟨hh, huses⟩ := (hs.frames _ hmem').of_found hfound
  obtain rfl : h = h' := Option.some.inj (hhandle.symm.trans hh)
  exact ⟨hfound, huses⟩

/-- After a provider has agreed to report, everything goes to it. -/
theorem Sound.keeps_after {s : Conversation K V} (hs : s.Sound) {earlier later : List (Event K V)}
    {e : Event K V} {h : Handle} (hhistory : s.history = earlier ++ e :: later)
    (hregistered : e.registered? = some h) :
    s.connection.handle = some h ∧ ∀ e ∈ later, e.Keeps h := by
  have he : e ∈ s.history := by simp [hhistory]
  have hkept := hs.kept
  rw [hhistory, List.pairwise_append, List.pairwise_cons] at hkept
  obtain ⟨-, ⟨hafter, -⟩, -⟩ := hkept
  exact ⟨(hs.settled e he h hregistered).1, fun e' he' => hafter e' he' h hregistered⟩

/-! ## What every run keeps to -/

/-- What can be said of opening after any run. -/
structure OpensOnce (serializer : Serializer V) (listeners : Nat) (s : Conversation K V) :
    Prop where
  /-- An operation that found no open provider opened it once. If that failed it asked nobody to
  report, and otherwise it asked once, and the provider that it got. -/
  opens : ∀ a, .answered a ∈ s.history → a.call.NeedsProvider → a.found.handle = none →
    a.trail.countP Exchange.isOpening = 1 ∧
      ((∃ failure, ⟨.openProvider, .error failure⟩ ∈ a.trail ∧
          a.trail.filterMap Exchange.registering? = []) ∨
        ∃ h, ⟨.openProvider, .ok h⟩ ∈ a.trail ∧ a.trail.filterMap Exchange.registering? = [h])
  /-- If opening or registering failed, the operation failed in the same way, asked for nothing
  more, and left the cache unconnected. -/
  fails : ∀ a failure, .answered a ∈ s.history → (∃ e ∈ a.trail, e.refused? = some failure) →
    a.answer = a.call.refusal failure ∧ (∀ e ∈ a.trail, ∀ h, ¬ e.Uses h) ∧
      a.left.handle = none ∧
      (Connection.operations (K := K) serializer listeners).connected a.left = false
  /-- And it does come to its answer, with nothing in between. -/
  answers : ∀ o trail rest below failure,
    s.stack = .operation o trail (.running rest) :: below →
    (∃ e ∈ trail, e.refused? = some failure) →
    ∃ left, Leads serializer listeners s { s with
      connection := left
      stack := below
      history := s.history ++ [.answered ⟨o, trail, o.call.refusal failure, left⟩] }
  /-- Until a provider has agreed to report, the cache is unconnected between its operations. -/
  retries : (∀ e ∈ s.history, e.registered? = none) → (∀ f ∈ s.stack, ¬ f.IsOperation) →
    s.connection.handle = none
  /-- While a provider is asked to report, its handle is in place. Every operation begun in the
  meantime has found it there and asks for nothing but what that provider is there for. -/
  within : ∀ inner o trail h next outgoing below,
    s.stack = inner ++ .operation o trail (.waiting (.register h) next outgoing) :: below →
    s.connection.handle = some h ∧ ∀ o' trail' doing', .operation o' trail' doing' ∈ inner →
      o'.found.handle = some h ∧ (∀ e ∈ trail', e.Uses h) ∧ doing'.Uses h
  /-- Once a provider has agreed to report, the cache is connected to it. Every operation begun
  later has found it, and everything that was asked later was asked of it. Nothing was opened again,
  and nobody asked to report. -/
  stays : ∀ earlier e later h, s.history = earlier ++ e :: later → e.registered? = some h →
    s.connection.handle = some h ∧
      (Connection.operations (K := K) serializer listeners).connected s.connection = true ∧
      ∀ e ∈ later, e.Keeps h

/-- **Opening is retried until it succeeds, and happens once.** After any run, with any outcomes of
opening and registering and any calls back into the cache. -/
theorem opens_once {serializer : Serializer V} {listeners : Nat} {s : Conversation K V}
    (h : Reachable serializer listeners s) : s.OpensOnce serializer listeners := by
  have hs := h.sound
  refine ⟨?_, ?_, ?_, ?_, ?_, ?_⟩
  · intro a ha hneeds hclosed
    exact (hs.answered a ha).opens hneeds hclosed
  · intro a failure ha hf
    obtain ⟨hanswer, hnothing, hleft⟩ := (hs.answered a ha).fails hf
    exact ⟨hanswer, hnothing, hleft, congrArg Option.isSome hleft⟩
  · intro o trail rest below failure here hf
    obtain ⟨stage, hplan, hreached, -⟩ := hs.frames _ (here ▸ List.mem_cons_self)
    exact leads_refusal serializer listeners hplan (hreached.of_refused hf) here
  · exact hs.unconnected
  · intro inner o trail h' next outgoing below here
    exact hs.uses_within here
  · intro earlier e later h' hhistory hregistered
    obtain ⟨hh, hkeeps⟩ := hs.keeps_after hhistory hregistered
    exact ⟨hh, congrArg Option.isSome hh, hkeeps⟩

/-- The provider does not open for the first operation. For the second it opens, and reports while
it is asked to, so that a listener calls back into the cache; then it refuses. The third operation
gets through. -/
theorem opens_once_third_time : ∃ during after : Conversation Nat String,
    during.OpensOnce .bareText 1 ∧ during.stack.length = 3 ∧
      during.connection.handle = some 0 ∧
    after.OpensOnce .bareText 1 ∧ after.history.filterMap Event.registered? = [1] ∧
      after.connection.handle = some 1 := by
  have h : Reachable (K := Nat) .bareText 1 {} := .refl
  have h := h.tail (.begin _ (.get 7) (List.forall_mem_nil _)) |>.tail (.access rfl)
    |>.tail (.ask rfl rfl) |>.tail (.reply rfl (.error (.providerUnavailable "away")))
    |>.tail (.log rfl) |>.tail (.answer rfl)
  have h := h.tail (.begin _ (.get 7) (List.forall_mem_nil _)) |>.tail (.access rfl)
    |>.tail (.ask rfl rfl) |>.tail (.reply rfl (.ok 0)) |>.tail (.access rfl)
    |>.tail (.ask rfl rfl)
  -- the listener hears of the removal and asks for another key
  have h := h.tail (.report _ .removed [⟨7, some [97]⟩] (List.forall_mem_singleton.mpr rfl))
  have h := h.tail (.begin _ (.get 8)
      (List.forall_mem_cons.mpr ⟨trivial, List.forall_mem_singleton.mpr rfl⟩))
    |>.tail (.access rfl) |>.tail (.ask rfl rfl)
  have h' := h.tail (.reply rfl (.ok none)) |>.tail (.log rfl) |>.tail (.access rfl)
  have h' := h'.tail (.answer rfl) |>.tail (.heard rfl)
    |>.tail (.reply rfl (.error (.provider "full")))
  have h' := h'.tail (.log rfl) |>.tail (.access rfl)
  have h' := h'.tail (.answer rfl)
  have h' := h'.tail (.begin _ .clear (List.forall_mem_nil _)) |>.tail (.access rfl)
    |>.tail (.ask rfl rfl) |>.tail (.reply rfl (.ok 1)) |>.tail (.access rfl)
    |>.tail (.ask rfl rfl) |>.tail (.reply rfl (.ok ()))
  exact ⟨_, _, opens_once h, rfl, rfl, opens_once h', rfl, rfl⟩

end Conversation

end GenerationalCache
