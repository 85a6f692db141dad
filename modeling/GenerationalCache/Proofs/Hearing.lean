import GenerationalCache.Proofs.Custody
import GenerationalCache.Proofs.Listeners
import GenerationalCache.Proofs.Opening

/-!
# The listeners of a distributed cache hear of every departure

Two accounts are put together here. The first is that of the cache: whatever is reported to it, each
listener is told of the values, or is still to be told by the calls in progress. It is kept by the
stack, whatever the listeners do from inside their calls. The second is that of the provider: each
departure is reported once to every adapter that is attached. They meet in the adapter. A cache asks
a provider to report only while no other is being asked and none has agreed, so there is only one.
-/

namespace GenerationalCache

variable {K V : Type}

/-- What this listener is told. -/
def Delivery.heardBy? (l : Nat) (d : Delivery V) : Option (Batch V) :=
  if d.listener = l then some d.batch else none

/-- Each listener hears of every batch. -/
theorem filterMap_heardBy_deliveries (listeners l : Nat) (batches : List (Batch V)) :
    (deliveries listeners batches).filterMap (Delivery.heardBy? l) =
      if l < listeners then batches else [] := by
  have hone : ∀ b : Batch V, (b.deliveries listeners).filterMap (Delivery.heardBy? l) =
      if l < listeners then [b] else [] := by
    intro b
    rw [Batch.deliveries, List.filterMap_map]
    split
    · exact filterMap_range_eq_singleton ‹_› b
    · refine List.filterMap_eq_nil_iff.mpr fun i hi => if_neg ?_
      have := List.mem_range.mp hi
      dsimp only
      omega
  rw [deliveries, List.filterMap_flatMap]
  simp only [hone]
  split
  · exact List.flatMap_singleton' batches
  · simp

/-- The payloads that hold a value, in their order. -/
theorem Receipt.readPayloads_fst (serializer : Serializer V) (changes : List (EntryEvent K)) :
    (readPayloads serializer changes).1 =
      changes.filterMap fun e => (serializer.decode e.payload).1 := by
  induction changes with
  | nil => rfl
  | cons e es ih =>
      simp only [readPayloads, ih, List.filterMap_cons]
      cases (serializer.decode e.payload).1 <;> rfl

/-- The values of a report go to the listeners as one batch. -/
theorem Receipt.calls_forward (serializer : Serializer V) (listeners : Nat)
    (changes : List (EntryEvent K)) (reason : Reason) :
    (forward serializer listeners changes reason).calls =
      deliveries listeners
        (Batch.ofValues (changes.filterMap fun e => (serializer.decode e.payload).1) reason) := by
  unfold forward
  split
  · rename_i hzero
    rw [hzero, deliveries_zero]
  · exact congrArg (fun values => deliveries listeners (Batch.ofValues values reason))
      (readPayloads_fst serializer changes)

namespace Conversation

open Custody

/-- What this listener is told. -/
def Event.heardBy? (l : Nat) : Event K V → Option (Batch V)
  | told d => d.heardBy? l
  | _ => none

/-- What this listener is still to be told. -/
def Frame.unheardBy (l : Nat) : Frame K V → List (Batch V)
  | operation _ _ _ => []
  | listening _ later => later.filterMap (Delivery.heardBy? l)

/-- What this listener has been told, in order. -/
def heard (s : Conversation K V) (l : Nat) : List (Batch V) :=
  s.history.filterMap (Event.heardBy? l)

/-- What this listener is still to be told by the calls in progress. -/
def unheard (s : Conversation K V) (l : Nat) : List (Batch V) :=
  s.stack.flatMap (Frame.unheardBy l)

/-- The calls for a report. -/
theorem filterMap_heardBy_calls (serializer : Serializer V) (listeners l : Nat) (kind : EventKind)
    (changes : List (EntryEvent K)) :
    (Receipt.ofEvents serializer listeners kind changes).calls.filterMap (Delivery.heardBy? l) =
      if l < listeners then (Event.reported kind changes).batches serializer else [] := by
  have hforward : ∀ reason,
      (Receipt.forward serializer listeners changes reason).calls.filterMap (Delivery.heardBy? l) =
        if l < listeners then
          Batch.ofValues (changes.filterMap fun e => (serializer.decode e.payload).1) reason
        else [] := by
    intro reason
    rw [Receipt.calls_forward]
    exact filterMap_heardBy_deliveries listeners l _
  cases kind with
  | created | updated => simp [Receipt.ofEvents, Event.batches]
  | removed | expired => exact hforward _

/-! ## The account of the cache -/

variable {serializer : Serializer V} {listeners : Nat} {s s' : Conversation K V}

/-- Whatever has been reported, each listener has been told of, or is going to be. -/
def Balanced (serializer : Serializer V) (listeners : Nat) (s : Conversation K V) : Prop :=
  ∀ l, (s.heard l ++ s.unheard l).Perm
    (if l < listeners then s.history.flatMap (Event.batches serializer) else [])

/-- Something happens that is no report and no call of a listener. -/
theorem Balanced.note (hs : s.Balanced serializer listeners) {e : Event K V}
    (hreports : e.reports = false) (hheard : ∀ l, e.heardBy? l = none) {connection : Connection}
    {stack : List (Frame K V)}
    (hstack : ∀ l, stack.flatMap (Frame.unheardBy l) = s.unheard l) :
    ({ connection, stack, history := s.history ++ [e] } : Conversation K V).Balanced
      serializer listeners := by
  intro l
  have hunheard :
      ({ connection, stack, history := s.history ++ [e] } : Conversation K V).unheard l =
        s.unheard l := hstack l
  rw [hunheard, heard, List.filterMap_append, List.filterMap_cons_none (hheard l),
    List.filterMap_nil, List.append_nil, List.flatMap_append, List.flatMap_singleton,
    Event.batches_of_not_reports serializer hreports, List.append_nil]
  exact hs l

/-- Calls of listeners are begun. -/
theorem heard_tell (s : Conversation K V) (below : List (Frame K V)) (ds : List (Delivery V))
    (l : Nat) :
    (s.tell below ds).heard l ++ (s.tell below ds).unheard l =
      s.heard l ++ ds.filterMap (Delivery.heardBy? l) ++ below.flatMap (Frame.unheardBy l) := by
  cases ds with
  | nil => simp [tell, heard, unheard]
  | cons d later =>
      simp only [tell, heard, unheard, List.filterMap_append, List.flatMap_cons, Frame.unheardBy,
        List.filterMap_cons, List.filterMap_nil, Event.heardBy?]
      cases d.heardBy? l <;> simp

theorem history_tell (s : Conversation K V) (below : List (Frame K V)) (ds : List (Delivery V)) :
    (s.tell below ds).history.flatMap (Event.batches serializer) =
      s.history.flatMap (Event.batches serializer) := by
  cases ds with
  | nil => rfl
  | cons d later => simp [tell, Event.batches]

/-- **Every step keeps the account.** -/
theorem balanced_step (hs : s.Balanced serializer listeners)
    (hstep : Step serializer listeners s s') : s'.Balanced serializer listeners := by
  cases hstep with
  | begin c free => exact hs.note rfl (fun _ => rfl) fun _ => rfl
  | act here own =>
      intro l
      have := hs l
      simpa [heard, unheard, here, Frame.unheardBy] using this
  | ask here outgoing =>
      exact hs.note rfl (fun _ => rfl) fun l => by simp [unheard, here, Frame.unheardBy]
  | reply here answer =>
      exact hs.note rfl (fun _ => rfl) fun l => by simp [unheard, here, Frame.unheardBy]
  | report kind changes free =>
      intro l
      have hl := hs l
      -- the batches of the report are added to what was reported and to what is still to be told
      rw [heard_tell, history_tell, filterMap_heardBy_calls]
      simp only [heard, List.filterMap_append, List.flatMap_append, List.flatMap_singleton,
        List.filterMap_cons, List.filterMap_nil, Event.heardBy?, List.append_nil]
      split at hl
      · rename_i hlt
        simp only [if_pos hlt, List.append_assoc]
        refine (List.perm_append_comm.append_left _).trans ?_
        rw [← List.append_assoc]
        exact hl.append_right _
      · rename_i hlt
        simp only [if_neg hlt, List.append_nil]
        exact hl
  | @heard d later below here =>
      intro l
      rw [heard_tell, history_tell]
      have hunheard : s.unheard l =
          later.filterMap (Delivery.heardBy? l) ++ below.flatMap (Frame.unheardBy l) := by
        simp [unheard, here, Frame.unheardBy]
      rw [List.append_assoc, ← hunheard]
      exact hs l
  | answer here =>
      exact hs.note rfl (fun _ => rfl) fun l => by simp [unheard, here, Frame.unheardBy]

theorem Reachable.balanced (h : Reachable serializer listeners s) :
    s.Balanced serializer listeners := by
  induction h with
  | refl => exact fun l => by simp [heard, unheard]
  | tail _ hstep ih => exact balanced_step ih hstep

/-! ## The account of the adapter -/

/-- The provider that an operation is asking to report. -/
def Frame.registering : Frame K V → List Handle
  | operation _ _ (.waiting (.register h) _ _) => [h]
  | _ => []

/-- The provider that is being asked to report. -/
def Enrolment.pending : Enrolment → List Handle
  | asking h => [h]
  | _ => []

theorem Event.registered?_of_registers {e : Event K V} (h : e.registers = false) :
    e.registered? = none := by
  cases e with
  | replied e =>
      obtain ⟨action, reply⟩ := e
      cases action with
      | register => cases h
      | _ => rfl
  | _ => rfl

/-- How far the cache has got with its adapter. -/
structure Enrolled (s : Conversation K V) (st : Enrolment) : Prop where
  /-- The history has brought it to this stage. -/
  enrols : Enrols s.history st
  /-- A provider is being asked to report exactly at the stage for that. -/
  asking : s.stack.flatMap Frame.registering = st.pending
  /-- One has agreed exactly at the stage after that. -/
  agreed : ∀ h, (∃ e ∈ s.history, e.registered? = some h) ↔ st = .agreed h

variable {st : Enrolment}

/-- Something happens that is not about adapters. -/
theorem Enrolled.note (hs : s.Enrolled st) {e : Event K V} (he : e.registers = false)
    {connection : Connection} {stack : List (Frame K V)}
    (hstack : stack.flatMap Frame.registering = s.stack.flatMap Frame.registering) :
    ({ connection, stack, history := s.history ++ [e] } : Conversation K V).Enrolled st where
  enrols := hs.enrols.snoc (.aside st he)
  asking := hstack.trans hs.asking
  agreed h := by
    rw [← hs.agreed h]
    simp [or_and_right, exists_or, Event.registered?_of_registers he]

theorem Enrolled.tell {below : List (Frame K V)} (hs : s.Enrolled st)
    (hstack : below.flatMap Frame.registering = s.stack.flatMap Frame.registering)
    (ds : List (Delivery V)) : (s.tell below ds).Enrolled st := by
  cases ds with
  | nil => exact ⟨hs.enrols, hstack.trans hs.asking, hs.agreed⟩
  | cons d later => exact hs.note rfl hstack

/-- A cache asks a provider to report only while no other is being asked, and none has agreed. -/
theorem Enrolled.idle_of_asking (hs : s.Enrolled st) (hsound : s.Sound) {o : Begun K V}
    {trail : List (Exchange K V)} {h : Handle}
    {next : Except CacheFailure Unit → Program Connection K V o.call.Answer}
    {below : List (Frame K V)}
    (here : s.stack = .operation o trail (.running (.step (.register h) next)) :: below) :
    st = .idle := by
  have htop : Frame.operation o trail (.running (.step (.register h) next)) ∈ s.stack :=
    here ▸ List.mem_cons_self
  have hrunning := hsound.frames _ htop
  have hwaiting : (Frame.operation o trail (.waiting (.register h) next rfl)).Sound _ := hrunning
  have hagrees : (Exchange.mk (.register h) (.ok ()) : Exchange K V).registered? = some h := rfl
  obtain ⟨-, hnot⟩ := hwaiting.of_registered hagrees
  cases st with
  | idle => rfl
  | asking h' =>
      -- the operation that is asking would be below this one, where only listeners are
      have hnone : below.flatMap Frame.registering = [] := by
        refine List.flatMap_eq_nil_iff.mpr fun f hf => ?_
        obtain ⟨d, later, rfl⟩ := hsound.listening_below here hnot f hf
        rfl
      have hasking := hs.asking
      rw [here, List.flatMap_cons, hnone] at hasking
      cases hasking
  | agreed h' =>
      obtain ⟨e, he, hregistered⟩ := (hs.agreed h').mpr rfl
      exact absurd ((hsound.settled e he h' hregistered).2 _ htop) (hnot h')

/-- **Every step is a step with the adapter, or none.** -/
theorem enrolled_step (hs : s.Enrolled st) (hsound : s.Sound)
    (hstep : Step serializer listeners s s') : ∃ st', s'.Enrolled st' := by
  cases hstep with
  | begin c free => exact ⟨st, hs.note rfl rfl⟩
  | act here own => exact ⟨st, hs.enrols, hs.asking ▸ by simp [here, Frame.registering], hs.agreed⟩
  | @ask o trail β action next below here outgoing =>
      cases action with
      | register h =>
          obtain rfl := hs.idle_of_asking hsound here
          have hasking := hs.asking
          rw [here] at hasking
          refine ⟨.asking h, hs.enrols.snoc (.asked h), congrArg (h :: ·) hasking, fun h' => ?_⟩
          have hagreed := hs.agreed h'
          simpa [or_and_right, exists_or, Event.registered?] using hagreed
      | _ => exact ⟨st, hs.note rfl (by simp [here, Frame.registering])⟩
  | @reply o trail β action next outgoing below here answer =>
      cases action with
      | register h =>
          have hasking := hs.asking
          rw [here] at hasking
          cases st with
          | idle | agreed => cases hasking
          | asking h' =>
              -- the reply comes from the provider that is being asked
              obtain ⟨rfl, hbelow⟩ := List.cons.inj hasking
              cases answer with
              | error failure =>
                  refine ⟨.idle, hs.enrols.snoc (.refused h failure), hbelow, fun h' => ?_⟩
                  have hagreed := hs.agreed h'
                  simpa [or_and_right, exists_or, Event.registered?, Exchange.registered?]
                    using hagreed
              | ok u =>
                  refine ⟨.agreed h, hs.enrols.snoc (.agreed h), hbelow, fun h' => ?_⟩
                  have hnone : ¬ ∃ e ∈ s.history, e.registered? = some h' := by
                    simp [hs.agreed h']
                  constructor
                  · rintro ⟨e, he, hregistered⟩
                    rcases List.mem_append.mp he with he | he
                    · exact absurd ⟨e, he, hregistered⟩ hnone
                    · obtain rfl := List.mem_singleton.mp he
                      exact congrArg Enrolment.agreed (Option.some.inj hregistered)
                  · rintro ⟨⟩
                    exact ⟨_, List.mem_append_right _ List.mem_cons_self, rfl⟩
      | _ => exact ⟨st, hs.note rfl (by simp [here, Frame.registering])⟩
  | report kind changes free =>
      have hn : ({ s with history := s.history ++ [.reported kind changes] } :
          Conversation K V).Enrolled st := hs.note rfl rfl
      exact ⟨st, hn.tell rfl _⟩
  | @heard d later below here => exact ⟨st, hs.tell (by simp [here, Frame.registering]) later⟩
  | answer here => exact ⟨st, hs.note rfl (by simp [here, Frame.registering])⟩

theorem Reachable.enrolled (h : Reachable serializer listeners s) : ∃ st, s.Enrolled st := by
  induction h with
  | refl => exact ⟨.idle, .start, rfl, fun h => by simp⟩
  | tail hreach hstep ih =>
      obtain ⟨st, hst⟩ := ih
      exact enrolled_step hst (Reachable.sound hreach) hstep

/-! ## What every run keeps to -/

/-- What can be said after any run of what the listeners have been told, and of the providers. -/
structure Attends (serializer : Serializer V) (listeners : Nat) (s : Conversation K V)
    (c : Custody K) : Prop where
  /-- There is one adapter, so nothing that leaves is reported twice. -/
  alone : c.adapters.length ≤ 1 ∧ ∀ d ∈ c.departures, d.adapters ≤ 1
  /-- From when a provider has agreed to report, the adapter is attached to it. -/
  attached : ∀ e ∈ s.history, ∀ h, e.registered? = some h → c.adapters = [h]
  /-- Of each departure from where the adapter is attached, each listener is told once, for its
  reason and of the values in the order of the provider, if there is any; it has been, or is going
  to be by a call in progress, or the provider has not reported it yet. It is told of nothing
  else. -/
  hears : ∀ l < listeners,
    (s.heard l ++ s.unheard l ++ c.owed.flatMap (Departure.batches serializer)).Perm
      ((c.departures.filter (·.adapters = 1)).flatMap (Departure.batches serializer))
  /-- So once nothing is in progress and everything has been reported, it has been told of all. -/
  settled : s.stack = [] → c.owed = [] → ∀ l < listeners,
    (s.heard l).Perm
      ((c.departures.filter (·.adapters = 1)).flatMap (Departure.batches serializer))
  /-- Between two moments at which the same is in progress, it is told of each report in between,
  once at most. -/
  within : ∀ s₀ during, Reachable serializer listeners s₀ → s.stack = s₀.stack →
    s.history = s₀.history ++ during → ∀ l < listeners,
      (during.filterMap (Event.heardBy? l)).Perm (during.flatMap (Event.batches serializer))
  /-- Nobody else is told of anything. -/
  others : ∀ l, listeners ≤ l → s.heard l = []
  /-- No payload leaves twice, or after it was overwritten, or is still there. -/
  payloads : (c.gone.map Payload.serial).Nodup ∧
    ∀ h k p, c.held h k = some p → p.serial ∉ c.gone.map Payload.serial

/-- With one adapter at most, what is announced is what has left where it is attached. -/
theorem announced_eq {c : Custody K} (h : ∀ d ∈ c.departures, d.adapters ≤ 1) :
    c.announced = c.departures.filter (·.adapters = 1) := by
  rw [announced]
  generalize c.departures = ds at h
  induction ds with
  | nil => rfl
  | cons d ds ih =>
      obtain ⟨hd, hds⟩ := List.forall_mem_cons.mp h
      rw [List.flatMap_cons, ih hds]
      rcases Nat.le_one_iff_eq_zero_or_eq_one.mp hd with hd | hd
      · simp [hd]
      · simp [hd]

variable [DecidableEq K]

/-- **Listeners hear of every departure, once, and of nothing else.** After any run, with any
failures to open and to register, any payloads, any replies and any calls back into the cache. -/
theorem hears_departures (h : Reachable serializer listeners s) {c : Custody K}
    (hc : Run s.history c) : Attends serializer listeners s c := by
  obtain ⟨st, hst⟩ := h.enrolled
  obtain ⟨hat, hle⟩ := hc.at hst.enrols
  have hbalanced : ∀ l < listeners, (s.heard l ++ s.unheard l).Perm
      (s.history.flatMap (Event.batches serializer)) := by
    intro l hl
    have := h.balanced l
    rwa [if_pos hl] at this
  have hhears : ∀ l < listeners,
      (s.heard l ++ s.unheard l ++ c.owed.flatMap (Departure.batches serializer)).Perm
        ((c.departures.filter (·.adapters = 1)).flatMap (Departure.batches serializer)) := by
    intro l hl
    rw [← announced_eq hle]
    exact ((hbalanced l hl).append_right _).trans (hc.perm serializer)
  refine ⟨⟨hat.length_adapters_le, hle⟩, ?_, hhears, ?_, ?_, ?_, ?_⟩
  · intro e he h' hregistered
    obtain rfl := (hst.agreed h').mp ⟨e, he, hregistered⟩
    exact hat.2.2
  · intro hstack howed l hl
    have := hhears l hl
    rw [unheard, hstack, howed] at this
    simpa using this
  · intro s₀ during h₀ hstack hhistory l hl
    have hbefore := h₀.balanced l
    have hafter := hbalanced l hl
    rw [if_pos hl] at hbefore
    have hunheard : s.unheard l = s₀.unheard l := by rw [unheard, unheard, hstack]
    rw [hunheard, heard, hhistory, List.filterMap_append, List.flatMap_append,
      List.append_assoc] at hafter
    -- what was heard before goes with what was reported before, and cancels
    have hswap := (List.perm_append_comm.append_left (s₀.heard l)).trans hafter
    rw [← List.append_assoc] at hswap
    exact (List.perm_append_left_iff _).mp (hswap.trans (hbefore.symm.append_right _))
  · intro l hl
    have := h.balanced l
    rw [if_neg (Nat.not_lt.mpr hl)] at this
    exact (List.append_eq_nil_iff.mp this.eq_nil).1
  · exact ⟨hc.distinct.gone, hc.distinct.kept⟩

/-- A conversation, and the part that the providers have had in it. -/
def Attended (serializer : Serializer V) (listeners : Nat) (s : Conversation K V) (c : Custody K) :
    Prop :=
  Reachable serializer listeners s ∧ Run s.history c

namespace Attended

variable {c c' c'' : Custody K} {e e' : Event K V}

theorem move (h : Attended serializer listeners s c) (move : c.Move c') :
    Attended serializer listeners s c' :=
  ⟨h.1, h.2.move move⟩

/-- A step that the history does not show. -/
theorem quiet (h : Attended serializer listeners s c) (step : Step serializer listeners s s')
    (same : s'.history = s.history) : Attended serializer listeners s' c :=
  ⟨h.1.tail step, same ▸ h.2⟩

theorem note (h : Attended serializer listeners s c) (step : Step serializer listeners s s')
    (one : s'.history = s.history ++ [e]) (sees : c.Sees e c') :
    Attended serializer listeners s' c' :=
  ⟨h.1.tail step, one ▸ h.2.sees sees⟩

/-- A report, and the first call for it. -/
theorem report (h : Attended serializer listeners s c) (step : Step serializer listeners s s')
    (two : s'.history = s.history ++ [e] ++ [e']) (sees : c.Sees e c') (sees' : c'.Sees e' c'') :
    Attended serializer listeners s' c'' :=
  ⟨h.1.tail step, two ▸ (h.2.sees sees).sees sees'⟩

end Attended

/-- Bytes that are no text, and a text, removed together. -/
def mixedClearance : Departure Nat :=
  ⟨0, .clearance, [(5, ⟨0, [255]⟩), (7, ⟨1, [97]⟩)], 1⟩

/-- A provider holds bytes that are no text. It refuses to report, and agrees when it is asked again.
A text is put, and everything is removed; the first listener looks the key up before the second has
been told. -/
theorem hears_departures_of_clear : ∃ (s : Conversation Nat String) (c : Custody Nat),
    Attends .bareText 2 s c ∧ s.stack = [] ∧ c.owed = [] ∧ c.adapters = [0] ∧
      s.heard 0 = [⟨["a"], .invalidated⟩] ∧ s.heard 1 = [⟨["a"], .invalidated⟩] := by
  have h : Attended (K := Nat) .bareText 2 {} {} := ⟨.refl, .start⟩
  have h := h.move (.store _ 0 5 [255])
  have h := h.note (.begin _ .clear (List.forall_mem_nil _)) rfl (.aside _ rfl rfl)
  have h := h.quiet (.access rfl) rfl
  have h := h.note (.ask rfl rfl) rfl (.aside _ rfl rfl)
  have h := h.note (.reply rfl (.ok 0)) rfl (.aside _ rfl rfl)
  have h := h.quiet (.access rfl) rfl
  have h := h.note (.ask rfl rfl) rfl (.asked _ 0)
  have h := h.note (.reply rfl (.error (.provider "busy"))) rfl (.refused _ List.mem_cons_self)
  have h := h.quiet (.log rfl) rfl
  have h := h.quiet (.access rfl) rfl
  have h := h.note (.answer rfl) rfl (.aside _ rfl rfl)
  have h := h.note (.begin _ (.insert 7 "a") (List.forall_mem_nil _)) rfl (.aside _ rfl rfl)
  have h := h.quiet (.access rfl) rfl
  have h := h.note (.ask rfl rfl) rfl (.aside _ rfl rfl)
  have h := h.note (.reply rfl (.ok 0)) rfl (.aside _ rfl rfl)
  have h := h.quiet (.access rfl) rfl
  have h := h.note (.ask rfl rfl) rfl (.asked _ 0)
  have h := h.move (.attach List.mem_cons_self)
  have h := h.note (.reply rfl (.ok ())) rfl (.agreed List.mem_cons_self)
  have h := h.quiet (.log rfl) rfl
  have h := h.note (.ask rfl rfl) rfl (.aside _ rfl rfl)
  have h := h.move (.store _ 0 7 [97])
  have h := h.note (.report _ .created [⟨7, some [97]⟩] (List.forall_mem_singleton.mpr rfl)) rfl
    (.mentioned _ _ (.inl rfl))
  have h := h.note (.reply rfl (.ok ())) rfl (.aside _ rfl rfl)
  have h := h.quiet (.access rfl) rfl
  have h := h.note (.answer rfl) rfl (.aside _ rfl rfl)
  have h := h.note (.begin _ .clear (List.forall_mem_nil _)) rfl (.aside _ rfl rfl)
  have h := h.quiet (.access rfl) rfl
  have h := h.note (.ask rfl rfl) rfl (.aside _ rfl rfl)
  have h := h.move (.depart mixedClearance (by decide) (by decide) (by decide) (by
    -- the provider holds what was stored last, and before that, and nothing else
    intro k p hp
    dsimp only at hp
    split at hp
    · rename_i hk
      cases hp
      simp [mixedClearance, hk.2]
    · split at hp
      · rename_i hk
        cases hp
        simp [mixedClearance, hk.2]
      · cases hp) rfl)
  -- to the two it adds an event without bytes
  have h := h.report (.report _ .removed [⟨5, some [255]⟩, ⟨7, some [97]⟩, ⟨9, none⟩]
    (List.forall_mem_singleton.mpr rfl)) rfl (.reported (d := mixedClearance) List.mem_cons_self rfl)
    (.aside _ rfl rfl)
  -- the first listener looks the key up from inside its call
  have h := h.note (.begin _ (.get 7)
      (List.forall_mem_cons.mpr ⟨trivial, List.forall_mem_singleton.mpr rfl⟩)) rfl
    (.aside _ rfl rfl)
  have h := h.quiet (.access rfl) rfl
  have h := h.note (.ask rfl rfl) rfl (.aside _ rfl rfl)
  have h := h.note (.reply rfl (.ok none)) rfl (.aside _ rfl rfl)
  have h := h.quiet (.log rfl) rfl
  have h := h.quiet (.access rfl) rfl
  have h := h.note (.answer rfl) rfl (.aside _ rfl rfl)
  have h := h.note (.heard rfl) rfl (.aside _ rfl rfl)
  have h := h.quiet (.heard rfl) rfl
  have h := h.note (.reply rfl (.ok ())) rfl (.aside _ rfl rfl)
  have h := h.note (.answer rfl) rfl (.aside _ rfl rfl)
  exact ⟨_, _, hears_departures h.1 h.2, rfl, rfl, rfl, rfl, rfl⟩

end Conversation

end GenerationalCache
