import GenerationalCache.Proofs.Connecting
import GenerationalCache.Proofs.SessionSteps
import GenerationalCache.Scenario.Setup

/-!
# Sessions on a distributed cache are conversations

The provider of a session keeps its entries in memory, takes the outcomes of its calls from a queue,
and reports from inside those calls. A conversation leaves all of that open. So whatever a scenario
does on a distributed cache is a conversation in which everything that is asked is a call that the
provider has counted, and what holds of every conversation holds for the sessions that are carried
out.
-/

namespace GenerationalCache

variable {K V : Type} {α β : Type}

namespace Program

/-- The program calls no listener. -/
inductive Quiet : Program Connection K V α → Prop where
  | done (a : α) : Quiet (.done a)
  | own {γ : Type} {action : Action Connection K V γ} {next : γ → Program Connection K V α}
      (own : ∀ c, ∃ done, action.own? c = some done) (rest : ∀ b, Quiet (next b)) :
      Quiet (.step action next)
  | ask {γ : Type} {action : Action Connection K V γ} {next : γ → Program Connection K V α}
      (outgoing : action.isOutgoing) (rest : ∀ b, Quiet (next b)) : Quiet (.step action next)

theorem Quiet.bind {p : Program Connection K V α} {f : α → Program Connection K V β}
    (hp : p.Quiet) (hf : ∀ a, (f a).Quiet) : (p.bind f).Quiet := by
  induction hp with
  | done a => exact hf a
  | own own _ ih => exact .own own ih
  | ask outgoing _ ih => exact .ask outgoing ih

theorem Serves.quiet {h : Handle} {p : Program Connection K V α} (hp : p.Serves h) : p.Quiet := by
  induction hp with
  | done a => exact .done a
  | access _ _ ih => exact .own (fun _ => ⟨_, rfl⟩) ih
  | log _ ih => exact .own (fun _ => ⟨_, rfl⟩) fun _ => ih
  | @request γ action next uses _ ih =>
      refine .ask ?_ ih
      cases action with
      | get | put | remove | removeAll => rfl
      | _ => exact uses.elim

end Program

theorem Connection.quiet_connect (listeners : Nat) :
    (connect listeners : Program Connection K V _).Quiet := by
  have hlog : ∀ es : List LogEvent, (Program.logAll es : Program Connection K V Unit).Quiet :=
    fun es => (Program.serves_logAll 0 es).quiet
  refine .own (fun _ => ⟨_, rfl⟩) fun handle => ?_
  cases handle with
  | some h => exact .done _
  | none =>
      refine .ask rfl fun r => ?_
      cases r with
      | error failure => exact (hlog _).bind fun _ => .done _
      | ok h =>
          refine .own (fun _ => ⟨_, rfl⟩) fun _ => .ask rfl fun r => ?_
          cases r with
          | error failure =>
              exact (hlog [_]).bind fun _ => .own (fun _ => ⟨_, rfl⟩) fun _ => .done _
          | ok _ => exact (hlog [_]).bind fun _ => .done _

theorem Connection.quiet_program (serializer : Serializer V) (listeners : Nat) (c : Call K V) :
    ((operations serializer listeners).program c).Quiet := by
  by_cases hc : c.NeedsProvider
  · obtain ⟨serve, heq, hfails, hserves⟩ := program_eq serializer hc
    rw [heq]
    refine (quiet_connect listeners).bind fun r => ?_
    cases r with
    | error failure =>
        rw [hfails]
        exact .done _
    | ok h => exact (hserves h).quiet
  · cases c with
    | evictStale | evictionRequired => exact .done _
    | _ => exact absurd trivial hc

/-! ## What a session and a conversation have in common -/

namespace Conversation

/-- The call of a listener. -/
def Event.told? : Event K V → Option (Delivery V)
  | told d => some d
  | _ => none

end Conversation

namespace Scenario

open Conversation

/-- The call of the provider that an action makes. -/
def ProviderCall.ofAction? {σ : Type} : Action σ K V β → Option ProviderCall
  | .openProvider => some opening
  | .register _ => some registering
  | .get _ _ => some get
  | .put _ _ _ => some put
  | .remove _ _ => some remove
  | .removeAll _ => some removeAll
  | _ => none

/-- The call of the provider that is made. -/
def ProviderCall.ofEvent? : Conversation.Event K V → Option ProviderCall
  | .asked action => ofAction? action
  | _ => none

/-- The script is for a distributed cache. -/
structure Script.IsDistributed (serializer : Serializer Item) (script : Script Connection) :
    Prop where
  /-- Its operations are those of a distributed cache. -/
  operations : script.operations = Connection.operations serializer script.listeners.length
  /-- What the provider reports reaches the listeners through the adapter. -/
  receive : ∀ r, script.receive r =
    Receipt.ofEvents serializer script.listeners.length r.kind r.events

namespace Session

/-- A session is where a conversation is, with these calls of listeners before the present step, and
these calls of the provider before the session. -/
structure Agrees (told : List (Delivery Item)) (asked : List ProviderCall) (s : Session Connection)
    (c : Conversation String Item) : Prop where
  /-- The cache knows the same of its provider. -/
  connection : c.connection = s.cache
  /-- The listeners were called for the same. -/
  told : c.history.filterMap Event.told? = told ++ s.calls
  /-- The provider was asked for the same. -/
  asked : asked ++ c.history.filterMap ProviderCall.ofEvent? = s.provider.calls.reverse

/-- Wherever something may begin, a conversation may get from where one session is to where the
other is, and then it is in the middle of just the same. -/
def Continues (serializer : Serializer Item) (listeners : Nat) (s s' : Session Connection) : Prop :=
  ∀ told asked c, Agrees told asked s c → (∀ f ∈ c.stack, f.Free) →
    ∃ c', Leads serializer listeners c c' ∧ c'.stack = c.stack ∧ Agrees told asked s' c'

variable {serializer : Serializer Item} {n : Nat} {script : Script Connection}
  {onCall : Delivery Item → Session Connection → Session Connection}
  {s s' s'' : Session Connection} {told : List (Delivery Item)} {asked : List ProviderCall}
  {c : Conversation String Item}

theorem Continues.trans (h : Continues serializer n s s') (h' : Continues serializer n s' s'') :
    Continues serializer n s s'' := by
  intro told asked c hc hfree
  obtain ⟨c', hleads, hstack, hc'⟩ := h told asked c hc hfree
  obtain ⟨c'', hleads', hstack', hc''⟩ := h' told asked c' hc' (hstack ▸ hfree)
  exact ⟨c'', hleads.trans hleads', hstack'.trans hstack, hc''⟩

theorem Agrees.aside (h : Agrees told asked s c) (hcache : s'.cache = s.cache)
    (hcalls : s'.calls = s.calls) (hprovider : s'.provider.calls = s.provider.calls) :
    Agrees told asked s' c where
  connection := h.connection.trans hcache.symm
  told := hcalls ▸ h.told
  asked := hprovider ▸ h.asked

/-- Something happens that no session shows. -/
theorem Agrees.note (h : Agrees told asked s c) {e : Conversation.Event String Item}
    (htold : e.told? = none) (hasked : ProviderCall.ofEvent? e = none)
    (stack : List (Frame String Item)) :
    Agrees told asked s { c with stack, history := c.history ++ [e] } where
  connection := h.connection
  told := by
    rw [List.filterMap_append, List.filterMap_cons_none htold, List.filterMap_nil, List.append_nil]
    exact h.told
  asked := by
    rw [List.filterMap_append, List.filterMap_cons_none hasked, List.filterMap_nil,
      List.append_nil]
    exact h.asked

theorem Continues.aside (hcache : s'.cache = s.cache) (hcalls : s'.calls = s.calls)
    (hprovider : s'.provider.calls = s.provider.calls) : Continues serializer n s s' :=
  fun _ _ c h _ => ⟨c, .refl, rfl, h.aside hcache hcalls hprovider⟩

theorem Continues.foldl {α : Type} {f : Session Connection → α → Session Connection}
    (hf : ∀ s a, Continues serializer n s (f s a)) (as : List α) (s : Session Connection) :
    Continues serializer n s (as.foldl f s) := by
  induction as generalizing s with
  | nil => exact .aside rfl rfl rfl
  | cons a as ih => exact (hf s a).trans (ih _)

/-- Calls of listeners, one after the other, each with the reaction to it. -/
theorem continues_callAll (hreacts : Reacts (Continues serializer n) onCall)
    (ds : List (Delivery Item)) {s : Session Connection} {c : Conversation String Item}
    (hc : Agrees told asked s c) (hfree : ∀ f ∈ c.stack, f.Free) :
    ∃ c', Leads serializer n (c.tell c.stack ds) c' ∧ c'.stack = c.stack ∧
      Agrees told asked (callAll onCall ds s) c' := by
  induction ds generalizing s c with
  | nil => exact ⟨c, .refl, rfl, hc⟩
  | cons d later ih =>
      have hcalled : Agrees told asked (s.record (.called d)) (c.tell c.stack (d :: later)) := by
        refine ⟨hc.connection, ?_, ?_⟩
        · rw [calls_record_called, ← List.append_assoc, ← hc.told]
          exact List.filterMap_append
        · refine Eq.trans ?_ hc.asked
          exact congrArg (asked ++ ·) (List.filterMap_append.trans (List.append_nil _))
      obtain ⟨c₁, hleads, hstack, hc₁⟩ := hreacts d s told asked _ hcalled
        (List.forall_mem_cons.mpr ⟨trivial, hfree⟩)
      -- the listener returns, and the rest is as if nothing had been going on
      have hrest : Agrees told asked (onCall d s) { c₁ with stack := c.stack } :=
        ⟨hc₁.connection, hc₁.told, hc₁.asked⟩
      obtain ⟨c₂, hleads', hstack', hc₂⟩ := ih hrest hfree
      have hreturn : Conversation.Step serializer n c₁ (c₁.tell c.stack later) := .heard hstack
      have hsame : c₁.tell c.stack later =
          tell { c₁ with stack := c.stack } c.stack later := by
        cases later <;> rfl
      exact ⟨c₂, hleads.trans (.head (hsame ▸ hreturn) hleads'), hstack', hc₂⟩

/-- A report of the provider is a report in the conversation. -/
theorem continues_receive (hscript : script.IsDistributed serializer)
    (hreacts : Reacts (Continues serializer script.listeners.length) onCall) (report : Report)
    (s : Session Connection) :
    Continues serializer script.listeners.length s (receive script onCall report s) := by
  intro told asked c hc hfree
  rw [receive, hscript.receive]
  have hlog : Agrees told asked (s.writeLog (Receipt.ofEvents serializer script.listeners.length
      report.kind report.events).log) c := hc.aside rfl rfl rfl
  have hreported := hlog.note (e := .reported report.kind report.events) rfl rfl c.stack
  obtain ⟨c', hleads, hstack, hc'⟩ := continues_callAll hreacts _ hreported hfree
  exact ⟨c', .head (.report c report.kind report.events hfree) hleads, hstack, hc'⟩

theorem perform_own (script : Script Connection)
    (onCall : Delivery Item → Session Connection → Session Connection)
    {action : Action Connection String Item β} {done : β × Connection}
    (h : action.own? s.cache = some done) :
    (perform script onCall action s).1 = done.1 ∧
      (perform script onCall action s).2.cache = done.2 ∧
      (perform script onCall action s).2.calls = s.calls ∧
      (perform script onCall action s).2.provider.calls = s.provider.calls := by
  cases action with
  | access | log =>
      cases h
      exact ⟨rfl, rfl, rfl, rfl⟩
  | _ => cases h

section Operations

variable (hscript : script.IsDistributed serializer)
  (hreacts : Reacts (Continues serializer script.listeners.length) onCall)

include hscript hreacts

theorem continues_receiveAll (report : Report) (s : Session Connection) :
    Continues serializer script.listeners.length s (receiveAll script onCall report s) :=
  Continues.foldl (fun s _ => continues_receive hscript hreacts report s) _ s

/-- After a request has been counted, the provider does nothing but report. -/
theorem continues_request {action : Action Connection String Item β} {call : ProviderCall}
    (hcall : ProviderCall.ofAction? action = some call) (hrequest : action.isRequest)
    (s : Session Connection) :
    Continues serializer script.listeners.length (s.beginCall call).2
      (perform script onCall action s).2 := by
  have hsame : ∀ s : Session Connection, Continues serializer script.listeners.length s s :=
    fun _ => .aside rfl rfl rfl
  have hreport : ∀ (s : Session Connection) (report : Report) (provider : MemoryProvider),
      provider.calls = s.provider.calls → Continues serializer script.listeners.length s
        (receiveAll script onCall report { s with provider }) := by
    intro s report provider hcalls
    have hprovider : Continues serializer script.listeners.length s { s with provider } :=
      .aside rfl rfl hcalls
    exact hprovider.trans (continues_receiveAll hscript hreacts report _)
  cases action with
  | register h =>
      cases hcall
      rw [perform]
      generalize s.beginCall .registering = begun
      obtain ⟨outcome, s₁⟩ := begun
      have hregistered : Continues serializer script.listeners.length s₁ { s₁ with provider :=
          { s₁.provider with registrations := s₁.provider.registrations + 1 } } :=
        .aside rfl rfl rfl
      cases outcome with
      | fail failure => exact hsame s₁
      | pass | failAfterwards failure =>
          dsimp only [Outcome.failure?]
          split
          · exact hregistered
          · exact hregistered.trans (continues_receive hscript hreacts _ _)
  | get h key =>
      cases hcall
      rw [perform]
      generalize s.beginCall .get = begun
      obtain ⟨outcome, s₁⟩ := begun
      cases outcome <;> exact hsame s₁
  | put h key bytes =>
      cases hcall
      rw [perform]
      generalize s.beginCall .put = begun
      obtain ⟨outcome, s₁⟩ := begun
      cases outcome with
      | pass => exact hreport s₁ _ _ rfl
      | fail | failAfterwards => exact hsame s₁
  | remove h key =>
      cases hcall
      rw [perform]
      generalize s.beginCall .remove = begun
      obtain ⟨outcome, s₁⟩ := begun
      cases outcome with
      | pass =>
          have hcalls : (s₁.provider.remove key).2.calls = s₁.provider.calls := by
            unfold MemoryProvider.remove
            split <;> rfl
          rcases hremoved : s₁.provider.remove key with ⟨report?, provider⟩
          rw [hremoved] at hcalls
          simp only [Outcome.failure?, hremoved]
          cases report? with
          | none => exact .aside rfl rfl hcalls
          | some report => exact hreport s₁ report provider hcalls
      | fail | failAfterwards => exact hsame s₁
  | removeAll h =>
      cases hcall
      rw [perform]
      generalize s.beginCall .removeAll = begun
      obtain ⟨outcome, s₁⟩ := begun
      cases outcome with
      | pass =>
          rcases hremoved : s₁.provider.removeAll with ⟨report?, provider⟩
          have hcalls : provider.calls = s₁.provider.calls := by
            cases hremoved
            rfl
          simp only [Outcome.failure?, hremoved]
          cases report? with
          | none => exact .aside rfl rfl hcalls
          | some report => exact hreport s₁ report provider hcalls
      | fail | failAfterwards => exact hsame s₁
  | _ => cases hrequest

/-- A question to the provider or its source, from the moment it is asked to the reply. -/
theorem continues_ask {o : Begun String Item} {trail : List (Exchange String Item)}
    {action : Action Connection String Item β}
    {next : β → Program Connection String Item o.call.Answer} (outgoing : action.isOutgoing)
    {below : List (Frame String Item)} (hc : Agrees told asked s c)
    (here : c.stack = .operation o trail (.running (.step action next)) :: below)
    (hfree : ∀ f ∈ below, f.Free) :
    ∃ c', Leads serializer script.listeners.length c c' ∧
      c'.stack = .operation o (trail ++ [⟨action, (perform script onCall action s).1⟩])
        (.running (next (perform script onCall action s).1)) :: below ∧
      Agrees told asked (perform script onCall action s).2 c' := by
  have hask : Conversation.Step serializer script.listeners.length c _ := .ask here outgoing
  obtain ⟨call, hcall⟩ : ∃ call, ProviderCall.ofAction? action = some call := by
    cases action with
    | access | log | notify => cases outgoing
    | _ => exact ⟨_, rfl⟩
  have hasked : Agrees told asked (s.beginCall call).2 { c with
      stack := .operation o trail (.waiting action next outgoing) :: below
      history := c.history ++ [.asked action] } := by
    refine ⟨hc.connection, ?_, ?_⟩
    · rw [List.filterMap_append, List.filterMap_cons_none rfl, List.filterMap_nil, List.append_nil]
      exact hc.told
    · have hevent : ProviderCall.ofEvent? (.asked action : Conversation.Event String Item) =
          some call := hcall
      rw [List.filterMap_append, ← List.append_assoc, hc.asked, List.filterMap_cons_some hevent]
      exact List.reverse_cons.symm
  -- what the provider does before it replies
  obtain ⟨c₁, hleads, hstack, hc₁⟩ : ∃ c₁, Leads serializer script.listeners.length { c with
      stack := .operation o trail (.waiting action next outgoing) :: below
      history := c.history ++ [.asked action] } c₁ ∧
      c₁.stack = .operation o trail (.waiting action next outgoing) :: below ∧
      Agrees told asked (perform script onCall action s).2 c₁ := by
    by_cases hrequest : action.isRequest
    · exact continues_request hscript hreacts hcall hrequest s told asked _ hasked
        (List.forall_mem_cons.mpr ⟨hrequest, hfree⟩)
    · refine ⟨_, .refl, rfl, ?_⟩
      cases action with
      | openProvider =>
          cases hcall
          have hperform : (perform script onCall .openProvider s).2 = (s.beginCall .opening).2 := by
            rw [perform]
            generalize s.beginCall .opening = begun
            obtain ⟨outcome, s₁⟩ := begun
            cases outcome <;> rfl
          rw [hperform]
          exact hasked
      | access | log | notify => cases outgoing
      | _ => exact absurd rfl hrequest
  have hreply : Conversation.Step serializer script.listeners.length c₁ _ :=
    .reply hstack (perform script onCall action s).1
  exact ⟨_, .head hask (hleads.tail hreply), rfl, hc₁.note rfl rfl _⟩

/-- **Running an operation in a session is an operation of the conversation**, with the same
answer. -/
theorem continues_quiet {o : Begun String Item}
    {p : Program Connection String Item o.call.Answer} (hp : p.Quiet)
    {trail : List (Exchange String Item)} {below : List (Frame String Item)}
    (hc : Agrees told asked s c) (here : c.stack = .operation o trail (.running p) :: below)
    (hfree : ∀ f ∈ below, f.Free) :
    ∃ c', Leads serializer script.listeners.length c c' ∧ c'.stack = below ∧
      Agrees told asked (s.run script onCall p).2 c' ∧
      ∃ trail' left, .answered ⟨o, trail', (s.run script onCall p).1, left⟩ ∈ c'.history := by
  induction hp generalizing s c trail with
  | done a =>
      refine ⟨_, .single (.answer here), rfl, hc.note rfl rfl below, trail, c.connection, ?_⟩
      exact List.mem_append_right _ (List.mem_singleton_self _)
  | @own γ action next own rest ih =>
      obtain ⟨done, hdone⟩ := own c.connection
      have hact : Conversation.Step serializer script.listeners.length c _ := .act here hdone
      rw [hc.connection] at hdone
      obtain ⟨hreply, hcache, hcalls, hprovider⟩ := perform_own script onCall hdone
      have hdone' : Agrees told asked (perform script onCall action s).2 { c with
          connection := done.2
          stack := .operation o trail (.running (next done.1)) :: below } :=
        ⟨hcache.symm, hcalls ▸ hc.told, hprovider ▸ hc.asked⟩
      obtain ⟨c', hleads, h⟩ := ih done.1 hdone' rfl
      refine ⟨c', .head hact hleads, ?_⟩
      rw [← hreply] at h
      exact h
  | @ask γ action next outgoing rest ih =>
      obtain ⟨c₁, hleads, hstack, hc₁⟩ := continues_ask hscript hreacts outgoing hc here hfree
      obtain ⟨c₂, hleads', h⟩ := ih _ hc₁ hstack
      exact ⟨c₂, hleads.trans hleads', h⟩

theorem continues_program (call : Call String Item) :
    Related script (Continues serializer script.listeners.length) onCall
      (script.operations.program call) := by
  intro s told asked c hc hfree
  rw [hscript.operations]
  have hbegin : Conversation.Step serializer script.listeners.length c _ := .begin c call hfree
  have hquiet := Connection.quiet_program serializer script.listeners.length call
  obtain ⟨c', hleads, hstack, hc', -⟩ := continues_quiet (o := ⟨call, c.connection⟩) hscript hreacts
    hquiet (hc.note (e := .began ⟨call, c.connection⟩) rfl rfl _) rfl hfree
  exact ⟨c', .head hbegin hleads, hstack, hc'⟩

end Operations

theorem tracks_continues (hscript : script.IsDistributed serializer) :
    Tracks script (Continues serializer script.listeners.length) where
  trans := Continues.trans
  aside := Continues.aside
  program hreacts call := continues_program hscript hreacts call
  receive hreacts report s := continues_receive hscript hreacts report s

/-! ## Scenarios -/

/-- The steps of a scenario, from one idle state of a conversation to another. -/
theorem reports_conversation (hscript : script.IsDistributed serializer)
    (hreachable : Reachable serializer script.listeners.length c) (hidle : c.stack = [])
    (hc : Agrees told asked s c) (hnew : s.happenings = []) (steps : List Step) :
    ∃ c' told', Reachable serializer script.listeners.length c' ∧ c'.stack = [] ∧
      Agrees told' asked (s.reports script steps).2 c' := by
  induction steps generalizing s c told with
  | nil => exact ⟨c, told, hreachable, hidle, hc⟩
  | cons scenarioStep steps ih =>
      have htracks := tracks_continues hscript
      obtain ⟨c₁, hleads, hstack, hc₁⟩ :=
        htracks.step (htracks.reacts_called script.depth) scenarioStep s told asked c hc
          (hidle ▸ List.forall_mem_nil _)
      -- the session forgets the calls of the step, and the conversation has had them
      have hnext : Agrees
          (told ++ (s.step script (called script script.depth) scenarioStep).2.calls)
          asked (s.report script scenarioStep).2 c₁ :=
        ⟨hc₁.connection, hc₁.told.trans (List.append_nil _).symm, hc₁.asked⟩
      exact ih (hreachable.trans hleads) (hstack.trans hidle) hnext rfl

end Session

/-- **Every scenario on a distributed cache is a conversation.** At its end nothing is in progress,
the counters are those of the conversation, and the calls of the provider are what was asked. -/
theorem runDistributed_reachable (kind : ValueKind) (provider : MemoryProvider)
    (listeners : List ListenerScript) (depth : Nat) (steps : List Step) :
    ∃ c : Conversation String Item, Reachable kind.serializer listeners.length c ∧ c.stack = [] ∧
      (runDistributed kind provider listeners depth steps).counters = c.connection.counters ∧
      (runDistributed kind provider listeners depth steps).provider.calls.reverse =
        provider.calls.reverse ++ c.history.filterMap ProviderCall.ofEvent? := by
  let script : Script Connection :=
    { operations := Connection.operations kind.serializer listeners.length
      receive := fun r => Receipt.ofEvents kind.serializer listeners.length r.kind r.events
      listeners
      depth }
  have hscript : script.IsDistributed kind.serializer := ⟨rfl, fun _ => rfl⟩
  let first : Session Connection := { cache := {}, scheduled := false, provider }
  have hfirst : Session.Agrees [] provider.calls.reverse first {} :=
    ⟨rfl, rfl, List.append_nil _⟩
  obtain ⟨c, told, hreachable, hidle, hc⟩ :=
    Session.reports_conversation hscript .refl rfl hfirst rfl steps
  refine ⟨c, hreachable, hidle, ?_, hc.asked.symm⟩
  rw [hc.connection]
  rfl

end Scenario

end GenerationalCache
