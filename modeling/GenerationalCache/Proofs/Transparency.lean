import GenerationalCache.Proofs.Books

/-!
# Failures come through, and the counters add up

An operation of a distributed cache that has connected calls the provider once, for what it is there
for. The failures that it answers with are those of its provider and of its source, each passed on
as it is, and no others. What a serializer refuses is not a failure: bytes that hold no value are a
miss, and a value without bytes is not stored. The counters stand at what the operations have
answered and the provider has replied, whatever fails and whatever calls back.
-/

namespace GenerationalCache

variable {K V : Type} {α β : Type}

/-- There is always some reply. -/
theorem Action.nonempty_of_isOutgoing {σ : Type} {action : Action σ K V β}
    (outgoing : action.isOutgoing) : Nonempty β := by
  cases action with
  | access | log | notify => cases outgoing
  | _ => exact ⟨.error (.provider "")⟩

namespace Conversation

/-- The exchange is what the operation is there for. -/
def Exchange.Serves (serializer : Serializer V) : Call K V → Exchange K V → Prop
  | .lookup k, ⟨.get _ k', _⟩ | .get k, ⟨.get _ k', _⟩ => k' = k
  | .insert k x, ⟨.put _ k' bytes, _⟩ => k' = k ∧ serializer.serialize x = .ok bytes
  | .remove k, ⟨.remove _ k', _⟩ => k' = k
  | .clear, ⟨.removeAll _, _⟩ => True
  | _, _ => False

theorem Exchange.Uses.isService {h : Handle} {e : Exchange K V} (hu : e.Uses h) :
    e.isService = true := by
  obtain ⟨action, reply⟩ := e
  cases action with
  | get | put | remove | removeAll => rfl
  | _ => exact hu.elim

theorem Exchange.isService_of_isStored {e : Exchange K V} (h : e.isStored = true) :
    e.isService = true := by
  obtain ⟨action, reply⟩ := e
  cases action with
  | put => rfl
  | _ => cases h

theorem Exchange.isService_of_isRemoved {e : Exchange K V} (h : e.isRemoved = true) :
    e.isService = true := by
  obtain ⟨action, reply⟩ := e
  cases action with
  | remove => rfl
  | _ => cases h

/-- A service has nothing to do with connecting. -/
theorem Exchange.refused?_of_isService {e : Exchange K V} (h : e.isService = true) :
    e.refused? = none := by
  obtain ⟨action, reply⟩ := e
  cases action with
  | get | put | remove | removeAll => rfl
  | _ => cases h

/-- What fails is a service, or connecting. -/
theorem Exchange.isService_or_refused {e : Exchange K V} {failure : CacheFailure}
    (hf : e.failed? = some failure) : e.isService = true ∨ e.refused? = some failure := by
  obtain ⟨action, reply⟩ := e
  cases action with
  | openProvider | register => exact .inr hf
  | get | put | remove | removeAll => exact .inl rfl
  | _ => cases hf

/-! ## What has been settled -/

namespace Settled

variable {serializer : Serializer V} {c : Call K V} {trail : List (Exchange K V)} {a : c.Answer}

/-- What an operation asks for, apart from connecting, is what it is there for. -/
theorem serves (hs : Settled serializer c trail a) :
    ∀ e ∈ trail.filter Exchange.isService, e.Serves serializer c := by
  cases hs with
  | alone => exact List.forall_mem_nil _
  | refused _ connects =>
      rw [connects.filter_isService]
      exact List.forall_mem_nil _
  | served _ connects serves =>
      rw [serves.filter_isService connects]
      cases serves with
      | lookup | get | remove => exact List.forall_mem_singleton.mpr rfl
      | insert _ accepts => exact List.forall_mem_singleton.mpr ⟨rfl, accepts⟩
      | drop => exact List.forall_mem_nil _
      | clear => exact List.forall_mem_singleton.mpr trivial

/-- An operation that connects makes its own call, once, unless it has no bytes to put. -/
theorem calls (hs : Settled serializer c trail a) (hc : c.NeedsProvider)
    (connected : ∀ e ∈ trail, e.refused? = none) :
    (∃ h e, trail.filter Exchange.isService = [e] ∧ Served serializer h c [e] a) ∨
      ∃ k x failure, c = .insert k x ∧ serializer.serialize x = .error failure := by
  cases hs with
  | alone _ halone => exact absurd hc halone
  | refused _ connects =>
      obtain ⟨e, he, hrefused⟩ := (connects.refused_iff _).mp rfl
      cases (connected e he).symm.trans hrefused
  | @served _ own h _ _ connects serves =>
      rw [serves.filter_isService connects]
      have hserved := serves
      cases serves with
      | drop k rejects => exact .inr ⟨k, _, _, rfl, rejects⟩
      | lookup | get | insert | remove | clear => exact .inl ⟨h, _, rfl, hserved⟩

/-- An operation that cannot connect asks for nothing more, and one that needs no provider asks for
nothing. -/
theorem idles (hs : Settled serializer c trail a) :
    (¬ c.NeedsProvider → trail = []) ∧
      ∀ e ∈ trail, ∀ failure, e.refused? = some failure →
        trail.filter Exchange.isService = [] ∧ a = c.refusal failure := by
  cases hs with
  | alone => exact ⟨fun _ => rfl, List.forall_mem_nil _⟩
  | refused needs connects =>
      refine ⟨absurd needs, fun e he failure hrefused => ?_⟩
      cases (connects.refused_iff failure).mpr ⟨e, he, hrefused⟩
      exact ⟨connects.filter_isService, rfl⟩
  | served needs connects serves =>
      refine ⟨absurd needs, fun e he failure hrefused => ?_⟩
      rcases List.mem_append.mp he with he | he
      · cases (connects.refused_iff failure).mpr ⟨e, he, hrefused⟩
      · cases (Exchange.refused?_of_isService (serves.isService.2 e he)).symm.trans hrefused

/-- A lookup answers with what the bytes hold. -/
theorem finds (hs : Settled serializer c trail a) {h : Handle} {k : K} {bytes : Option Bytes}
    (hget : ⟨.get h k, .ok bytes⟩ ∈ trail) :
    trail.filter Exchange.isService = [⟨.get h k, .ok bytes⟩] ∧ c.LooksUp k ∧
      c.value? a = some (serializer.decode bytes).1 := by
  have hmem : (⟨.get h k, .ok bytes⟩ : Exchange K V) ∈ trail.filter Exchange.isService :=
    List.mem_filter.mpr ⟨hget, rfl⟩
  have hserves := hs.serves _ hmem
  cases hs with
  | alone => cases hget
  | refused _ connects =>
      rw [connects.filter_isService] at hmem
      cases hmem
  | served _ connects serves =>
      rw [serves.filter_isService connects] at hmem ⊢
      cases serves with
      | lookup | get =>
          cases List.mem_singleton.mp hmem
          exact ⟨rfl, rfl, rfl⟩
      | _ => exact hserves.elim

/-- A value without bytes is not put, and that is no failure. -/
theorem drops {k : K} {x : V} {a : Except CacheFailure Unit} {failure : CacheFailure}
    (hs : Settled serializer (.insert k x) trail a)
    (rejects : serializer.serialize x = .error failure) :
    trail.filter Exchange.isService = [] ∧ ((∀ e ∈ trail, e.failed? = none) → a = .ok ()) := by
  refine ⟨List.eq_nil_iff_forall_not_mem.mpr fun e he => ?_, fun hnone => ?_⟩
  · obtain ⟨action, reply⟩ := e
    have hserves := hs.serves _ he
    cases action with
    | put => cases hserves.2.symm.trans rejects
    | _ => exact hserves
  · cases a with
    | ok => rfl
    | error failure =>
        obtain ⟨e, he, hfailed⟩ := (hs.failure_iff failure).mp rfl
        cases (hnone e he).symm.trans hfailed

/-- Of the services of an operation, as many are of a kind as there are such exchanges, one or
none. -/
theorem countP_services (hs : Settled serializer c trail a) {p : Exchange K V → Bool}
    (hp : ∀ e, p e = true → e.isService = true) :
    (trail.filter Exchange.isService).countP p = (trail.any p).toNat := by
  have hany : (trail.filter Exchange.isService).any p = trail.any p := by
    rw [List.any_filter]
    congr 1
    funext e
    cases h : p e <;> simp [hp e, h]
  -- an operation asks for one service at most, so to count is to look
  rw [← hany]
  match hservices : trail.filter Exchange.isService, hs.length_services_le with
  | [], _ => rfl
  | [e], _ => cases h : p e <;> simp [h]

/-- What an operation counts, place by place. -/
theorem counted_eq (hs : Settled serializer c trail a) (counters : Counters) :
    counted trail (c.value? a) counters =
      { counters with
        hits := counters.hits + .ofNat ((c.value? a).any Option.isSome).toNat
        misses := counters.misses + .ofNat ((c.value? a).any Option.isNone).toNat
        inserts := counters.inserts +
          .ofNat ((trail.filter Exchange.isService).countP Exchange.isStored)
        invalidations := counters.invalidations +
          .ofNat ((trail.filter Exchange.isService).countP Exchange.isRemoved) } := by
  have hstored := hs.countP_services fun e => Exchange.isService_of_isStored
  have hremoved := hs.countP_services fun e => Exchange.isService_of_isRemoved
  rw [hstored, hremoved, counted]
  cases trail.any Exchange.isStored <;> cases trail.any Exchange.isRemoved <;>
    rcases c.value? a with _ | _ | x <;>
    simp [Counters.lookedUp, Counters.stored, Counters.invalidated]

end Settled

/-- What all operations have counted, place by place. -/
theorem tally_eq {serializer : Serializer V} {history : List (Event K V)}
    (settled : ∀ a, .answered a ∈ history → Settled serializer a.call a.trail a.answer) :
    tally history {} =
      { hits := .ofNat (history.countP Event.isHit)
        misses := .ofNat (history.countP Event.isMiss)
        inserts := .ofNat ((history.flatMap Event.services).countP Exchange.isStored)
        invalidations := .ofNat ((history.flatMap Event.services).countP Exchange.isRemoved) } := by
  induction history using List.reverseRecOn with
  | nil => rfl
  | append_singleton history e ih =>
      rw [tally_concat, ih fun a ha => settled a (List.mem_append_left _ ha)]
      simp only [List.countP_append, List.flatMap_append, List.flatMap_singleton, UInt64.ofNat_add]
      cases e with
      | answered a =>
          have ha : Event.answered a ∈ history ++ [.answered a] := by simp
          exact (settled a ha).counted_eq _
      | _ => simp [Event.counts, Event.isHit, Event.isMiss, Event.services]

/-! ## An operation comes to its answer -/

/-- The innermost operation has answered. -/
def close (s : Conversation K V) (below : List (Frame K V)) (a : Answered K V) :
    Conversation K V where
  connection := a.left
  stack := below
  history := s.history ++ [.answered a]

variable {serializer : Serializer V} {listeners : Nat} {s : Conversation K V}

/-- Every course comes to an end if the replies come. -/
theorem Course.ends {ends : List (Exchange K V) → (Counters → Counters) → α → Prop}
    {trail : List (Exchange K V)} {count : Counters → Counters} {p : Program Connection K V α}
    (h : Course ends trail count p) : ∃ more count a, ends (trail ++ more) count a := by
  induction h with
  | @done trail count a here => exact ⟨[], count, a, by rwa [List.append_nil]⟩
  | access _ _ _ ih => exact ih {}
  | log _ ih => exact ih
  | ask outgoing _ _ ih =>
      obtain ⟨r⟩ := Action.nonempty_of_isOutgoing outgoing
      obtain ⟨more, count, a, h⟩ := ih r
      exact ⟨_, count, a, List.append_assoc _ _ more ▸ h⟩

/-- An operation that runs comes to its answer or to a question. -/
theorem leads_course (serializer : Serializer V) (listeners : Nat) {o : Begun K V}
    {ends : List (Exchange K V) → (Counters → Counters) → o.call.Answer → Prop}
    {trail : List (Exchange K V)} {count : Counters → Counters}
    {rest : Program Connection K V o.call.Answer} {below : List (Frame K V)}
    (h : Course ends trail count rest)
    (here : s.stack = .operation o trail (.running rest) :: below) :
    (∃ count a left, ends trail count a ∧
        Leads serializer listeners s (s.close below ⟨o, trail, a, left⟩)) ∨
      ∃ (γ : Type) (action : Action Connection K V γ) (next : γ → Program Connection K V _)
        (outgoing : action.isOutgoing) (left : Connection),
        Course ends trail id (.step action next) ∧
        Leads serializer listeners s { s with
          connection := left
          stack := .operation o trail (.waiting action next outgoing) :: below
          history := s.history ++ [.asked action] } := by
  induction h generalizing s with
  | done ends => exact .inl ⟨_, _, s.connection, ends, .single (.answer here)⟩
  | @access _ _ γ change next more _ _ ih =>
      rcases @ih s.connection { s with
          connection := (change s.connection).2
          stack := .operation o _ (.running (next (change s.connection).1)) :: below } rfl with
        ⟨count, a, left, ends, hl⟩ | ⟨γ, action, next, outgoing, left, hc, hl⟩
      · exact .inl ⟨count, a, left, ends, .head (.access here) hl⟩
      · exact .inr ⟨γ, action, next, outgoing, left, hc, .head (.access here) hl⟩
  | @log _ _ e next _ ih =>
      rcases ih (s := { s with stack := .operation o _ (.running (next ())) :: below }) rfl with
        ⟨count, a, left, ends, hl⟩ | ⟨γ, action, next, outgoing, left, hc, hl⟩
      · exact .inl ⟨count, a, left, ends, .head (.log here) hl⟩
      · exact .inr ⟨γ, action, next, outgoing, left, hc, .head (.log here) hl⟩
  | @ask _ γ action next outgoing unserved rest _ =>
      refine .inr ⟨γ, action, next, outgoing, s.connection, ?_, .single (.ask here outgoing)⟩
      exact .ask outgoing unserved rest

/-- An operation comes to its answer once it has been served, and once something has failed. -/
theorem Reachable.answers (hs : Reachable serializer listeners s) {o : Begun K V}
    {trail : List (Exchange K V)} {rest : Program Connection K V o.call.Answer}
    {below : List (Frame K V)} (here : s.stack = .operation o trail (.running rest) :: below)
    {e : Exchange K V} (he : e ∈ trail)
    (hover : e.isService = true ∨ ∃ failure, e.failed? = some failure) :
    ∃ a left, Leads serializer listeners s (s.close below ⟨o, trail, a, left⟩) := by
  by_cases hservice : e.isService = true
  · obtain ⟨count, hcourse, -⟩ := hs.booked.counters
    rw [here] at hcourse
    rcases leads_course serializer listeners hcourse.1 here with
      ⟨_, a, left, -, hl⟩ | ⟨γ, action, next, outgoing, left, hask, -⟩
    · exact ⟨a, left, hl⟩
    · cases hask with
      | access | log => cases outgoing
      | ask _ unserved => exact absurd hservice (List.filter_eq_nil_iff.mp unserved e he)
  · obtain ⟨failure, hfailed⟩ := hover.resolve_left hservice
    have hrefused := (Exchange.isService_or_refused hfailed).resolve_left hservice
    obtain ⟨stage, hplan, hreached, -⟩ := hs.sound.frames _ (here ▸ List.mem_cons_self)
    obtain ⟨left, hl⟩ := leads_refusal serializer listeners hplan
      (hreached.of_refused ⟨e, he, hrefused⟩) here
    exact ⟨_, left, hl⟩

/-- An insert of a value without bytes is over as soon as it has a provider. -/
theorem Reachable.givesUp (hs : Reachable serializer listeners s) {found : Connection} {k : K}
    {x : V} {trail : List (Exchange K V)} {rest : Program Connection K V (Except CacheFailure Unit)}
    {below : List (Frame K V)}
    (here : s.stack = .operation ⟨.insert k x, found⟩ trail (.running rest) :: below)
    {failure : CacheFailure} (rejects : serializer.serialize x = .error failure) {h : Handle}
    (hsettled : (Frame.operation ⟨.insert k x, found⟩ trail (.running rest)).Settled h) :
    ∃ left, Leads serializer listeners s
      (s.close below ⟨⟨.insert k x, found⟩, trail, .ok (), left⟩) := by
  obtain ⟨count, hcourse, -⟩ := hs.booked.counters
  rw [here] at hcourse
  rcases leads_course serializer listeners hcourse.1 here with
    ⟨_, a, left, ⟨hends, -⟩, hl⟩ | ⟨γ, action, next, outgoing, left, hask, hl⟩
  · -- nothing that it exchanged has failed, because it has a provider
    have hnone : ∀ e ∈ trail, e.failed? = none := by
      refine fun e he => Option.eq_none_iff_forall_ne_some.mpr fun f hf => ?_
      obtain ⟨stage, -, hreached, -⟩ := hs.sound.frames _ (here ▸ List.mem_cons_self)
      rcases Exchange.isService_or_refused hf with hservice | hrefused
      · exact List.filter_eq_nil_iff.mp (hends.drops rejects).1 e he hservice
      · rcases hreached.of_settled hsettled with ⟨rfl, -⟩ | rfl
        · simpa using hreached.of_refused ⟨e, he, hrefused⟩
        · simpa using hreached.of_refused ⟨e, he, hrefused⟩
    obtain rfl : a = .ok () := (hends.drops rejects).2 hnone
    exact ⟨left, hl⟩
  · -- whatever it asked for would be a service, and it ends without one
    have hasked : Reachable serializer listeners _ := Relation.ReflTransGen.trans hs hl
    have hframe := hasked.sound.frames _ List.mem_cons_self
    have huses : action.Uses h := hframe.uses_of_settled hsettled
    cases hask with
    | access | log => cases outgoing
    | ask _ _ rest =>
        obtain ⟨r⟩ := Action.nonempty_of_isOutgoing outgoing
        obtain ⟨more, _, a, hends, -⟩ := (rest r).ends
        have hservice := Exchange.Uses.isService (e := ⟨action, r⟩) huses
        refine absurd hservice (List.filter_eq_nil_iff.mp (hends.drops rejects).1 _ ?_)
        simp

/-! ## What every run keeps to -/

/-- What can be said of failures and of the counters after any run. -/
structure KeepsBooks (serializer : Serializer V) (listeners : Nat) (s : Conversation K V) :
    Prop where
  /-- An operation fails exactly as opening, registering or its own call did. -/
  fails : ∀ a failure, .answered a ∈ s.history →
    (a.call.failure? a.answer = some failure ↔ ∃ e ∈ a.trail, e.failed? = some failure)
  /-- Apart from connecting it asks for at most one thing, and that is what it is there for. -/
  serves : ∀ a, .answered a ∈ s.history →
    a.services.length ≤ 1 ∧ ∀ e ∈ a.services, e.Serves serializer a.call
  /-- It does ask for that, exactly once, unless connecting failed or what it inserts has no bytes,
  and what it answers is what the reply makes it. -/
  calls : ∀ a, .answered a ∈ s.history → a.call.NeedsProvider →
    (∀ e ∈ a.trail, e.refused? = none) →
    (∃ h e, a.services = [e] ∧ Served serializer h a.call [e] a.answer) ∨
      ∃ k x failure, a.call = .insert k x ∧ serializer.serialize x = .error failure
  /-- An operation that cannot connect asks for nothing more and passes the failure on, and one that
  needs no provider asks for nothing. -/
  idles : ∀ a, .answered a ∈ s.history →
    (¬ a.call.NeedsProvider → a.trail = []) ∧
      ∀ e ∈ a.trail, ∀ failure, e.refused? = some failure →
        a.services = [] ∧ a.answer = a.call.refusal failure
  /-- A lookup that gets bytes, or none, answers with the value that they hold, or with none, and
  asks for nothing else. -/
  finds : ∀ a h k bytes, .answered a ∈ s.history → ⟨.get h k, .ok bytes⟩ ∈ a.trail →
    a.services = [⟨.get h k, .ok bytes⟩] ∧ a.call.LooksUp k ∧
      a.call.value? a.answer = some (serializer.decode bytes).1
  /-- A value without bytes is not put, and unless connecting failed the answer is that all is
  well. -/
  drops : ∀ k x found trail answer left failure,
    .answered ⟨⟨.insert k x, found⟩, trail, answer, left⟩ ∈ s.history →
    serializer.serialize x = .error failure →
    trail.filter Exchange.isService = [] ∧ ((∀ e ∈ trail, e.failed? = none) → answer = .ok ())
  /-- An operation comes to its answer, with nothing in between, once it has been served, and once
  something has failed. -/
  answers : ∀ o trail rest below e, s.stack = .operation o trail (.running rest) :: below →
    e ∈ trail → (e.isService = true ∨ ∃ failure, e.failed? = some failure) →
    ∃ a left, Leads serializer listeners s (s.close below ⟨o, trail, a, left⟩)
  /-- So does the insert of a value without bytes, once it has a provider. -/
  givesUp : ∀ k x found trail rest below failure h,
    s.stack = .operation ⟨.insert k x, found⟩ trail (.running rest) :: below →
    serializer.serialize x = .error failure →
    (Frame.operation ⟨.insert k x, found⟩ trail (.running rest)).Settled h →
    ∃ left, Leads serializer listeners s
      (s.close below ⟨⟨.insert k x, found⟩, trail, .ok (), left⟩)
  /-- Whenever no operation is running, what was asked of providers was asked by the operations
  that have answered. -/
  services : (∀ f ∈ s.stack, f.Free) →
    s.history.filterMap Event.service? = s.history.flatMap Event.services
  /-- And the counters stand at what was answered and replied. -/
  counters : (∀ f ∈ s.stack, f.Free) →
    s.connection.counters =
      { hits := .ofNat (s.history.countP Event.isHit)
        misses := .ofNat (s.history.countP Event.isMiss)
        inserts := .ofNat (s.history.countP Event.isStored)
        replacements := 0
        invalidations := .ofNat (s.history.countP Event.isRemoved)
        rotations := 0
        evictedByRotation := 0 }
  /-- An operation that fails adds nothing to what the operations that began in the meantime have
  counted. -/
  spares : ∀ earlier during later a failure,
    s.history = earlier ++ .began a.toBegun :: during ++ .answered a :: later →
    a.call.failure? a.answer = some failure → a.left.counters = tally during a.found.counters

/-- What operations have put and removed is what providers have taken and removed. -/
theorem countP_services {history : List (Event K V)}
    (hservices : history.filterMap Event.service? = history.flatMap Event.services) :
    (history.flatMap Event.services).countP Exchange.isStored = history.countP Event.isStored ∧
      (history.flatMap Event.services).countP Exchange.isRemoved =
        history.countP Event.isRemoved := by
  rw [← hservices, List.countP_filterMap, List.countP_filterMap]
  refine ⟨List.countP_congr fun e _ => ?_, List.countP_congr fun e _ => ?_⟩
  all_goals
    cases e with
    | replied e =>
        obtain ⟨action, reply⟩ := e
        cases action <;>
          simp [Event.service?, Event.isStored, Event.isRemoved, Exchange.isService,
            Exchange.isStored, Exchange.isRemoved]
    | _ => rfl

/-- **Failures come through unchanged, and the counters add up.** After any run, with any replies,
any payloads, any serializer and any calls back into the cache. -/
theorem keeps_books (h : Reachable serializer listeners s) : s.KeepsBooks serializer listeners := by
  have hb := h.booked
  have hanswered : ∀ a, .answered a ∈ s.history → Settled serializer a.call a.trail a.answer :=
    fun a ha => hb.settled ha
  have hfree : (∀ f ∈ s.stack, f.Free) →
      s.history.filterMap Event.service? = s.history.flatMap Event.services := by
    intro free
    obtain ⟨count, hcourse, -⟩ := hb.counters
    rw [hb.services, InCourse.pending_eq_nil (hcourse.of_free free).2, List.append_nil]
  refine ⟨?_, ?_, ?_, ?_, ?_, ?_, ?_, ?_, hfree, ?_, ?_⟩
  · exact fun a failure ha => (hanswered a ha).failure_iff failure
  · exact fun a ha => ⟨(hanswered a ha).length_services_le, (hanswered a ha).serves⟩
  · exact fun a ha needs connected => (hanswered a ha).calls needs connected
  · exact fun a ha => (hanswered a ha).idles
  · exact fun a h k bytes ha hget => (hanswered a ha).finds hget
  · exact fun k x found trail answer left failure ha rejects => (hanswered _ ha).drops rejects
  · exact fun o trail rest below e here he hover => h.answers here he hover
  · exact fun k x found trail rest below failure h' here rejects hsettled =>
      h.givesUp here rejects hsettled
  · intro free
    obtain ⟨count, hcourse, hcounters⟩ := hb.counters
    obtain ⟨rfl, -⟩ := hcourse.of_free free
    obtain ⟨hstored, hremoved⟩ := countP_services (hfree free)
    rw [hcounters, id, tally_eq hanswered, hstored, hremoved]
  · intro earlier during later a failure heq hfailed
    have hbegan : a.found.counters = tally earlier {} :=
      hb.moments earlier (.began a.toBegun) (during ++ .answered a :: later) (by simpa using heq)
    obtain ⟨hsettled, hleft, -⟩ :=
      hb.moments (earlier ++ .began a.toBegun :: during) (.answered a) later heq
    rw [hleft, tally_concat, tally_append, hbegan]
    exact congrFun (hsettled.counted_of_failed hfailed) _

/-- Opening fails once. A text that has no bytes is dropped, another is put, bytes that hold no text
are a miss, and a removal fails while a listener looks the key up and hits. The cache is cleared
twice, and the first time that fails. With every answer stands how often its operation has called
the provider. -/
theorem keeps_books_through_failures : ∃ s : Conversation Nat String,
    s.KeepsBooks .bareText 1 ∧ s.stack = [] ∧
      s.history.filterMap (fun
        | .answered a => some (a.call.failure? a.answer, a.services.length)
        | _ => none) =
        [(some (.providerUnavailable "away"), 0), (none, 0), (none, 1), (none, 1), (none, 1),
          (some (.provider "gone"), 1), (some (.provider "busy"), 1), (none, 1)] ∧
      s.connection.counters = { hits := 1, misses := 1, inserts := 1 } := by
  have h : Reachable (K := Nat) .bareText 1 {} := .refl
  have h := h.tail (.begin _ (.get 7) (List.forall_mem_nil _)) |>.tail (.access rfl)
    |>.tail (.ask rfl rfl) |>.tail (.reply rfl (.error (.providerUnavailable "away")))
    |>.tail (.log rfl) |>.tail (.answer rfl)
  have h := h.tail (.begin _ (.insert 7 "") (List.forall_mem_nil _)) |>.tail (.access rfl)
    |>.tail (.ask rfl rfl) |>.tail (.reply rfl (.ok 0)) |>.tail (.access rfl)
    |>.tail (.ask rfl rfl) |>.tail (.reply rfl (.ok ())) |>.tail (.log rfl) |>.tail (.log rfl)
    |>.tail (.log rfl) |>.tail (.answer rfl)
  have h := h.tail (.begin _ (.insert 7 "a") (List.forall_mem_nil _)) |>.tail (.access rfl)
  have h := h.tail (.ask rfl rfl) |>.tail (.reply rfl (.ok ()))
  have h := h.tail (.access rfl) |>.tail (.answer rfl)
  have h := h.tail (.begin _ (.get 7) (List.forall_mem_nil _)) |>.tail (.access rfl)
  have h := h.tail (.ask rfl rfl) |>.tail (.reply rfl (.ok (some [255])))
  have h := h.tail (.log rfl) |>.tail (.log rfl) |>.tail (.access rfl)
  have h := h.tail (.answer rfl)
  have h := h.tail (.begin _ (.remove 7) (List.forall_mem_nil _)) |>.tail (.access rfl)
    |>.tail (.ask rfl rfl)
  -- the provider reports the removal, and the listener looks the key up
  have h := h.tail (.report _ .removed [⟨7, some [97]⟩] (List.forall_mem_singleton.mpr rfl))
  have h := h.tail (.begin _ (.get 7)
      (List.forall_mem_cons.mpr ⟨trivial, List.forall_mem_singleton.mpr rfl⟩))
    |>.tail (.access rfl)
  have h := h.tail (.ask rfl rfl) |>.tail (.reply rfl (.ok (some [97])))
  have h := h.tail (.log rfl) |>.tail (.access rfl) |>.tail (.answer rfl)
  have h := h.tail (.heard rfl)
  have h := h.tail (.reply rfl (.error (.provider "gone")))
  have h := h.tail (.answer rfl)
  have h := h.tail (.begin _ .clear (List.forall_mem_nil _)) |>.tail (.access rfl)
    |>.tail (.ask rfl rfl) |>.tail (.reply rfl (.error (.provider "busy"))) |>.tail (.answer rfl)
  have h := h.tail (.begin _ .clear (List.forall_mem_nil _)) |>.tail (.access rfl)
    |>.tail (.ask rfl rfl) |>.tail (.reply rfl (.ok ())) |>.tail (.answer rfl)
  exact ⟨_, keeps_books h, rfl, rfl, rfl⟩

end Conversation

end GenerationalCache
