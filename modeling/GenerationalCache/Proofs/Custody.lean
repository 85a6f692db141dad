import GenerationalCache.Proofs.Conversation
import Mathlib.Data.List.Nodup

/-!
# What a provider does with its entries

The other side of a conversation. A provider holds entries, which this cache has put there, or
another client, or which were there before. An entry that is stored displaces the one under its key.
Entries leave together, because they were removed or all were, or because they expired: they are
taken out, and then every adapter that is attached is to be told of them, once. An adapter is
attached while its cache asks for reports, and only if the provider then agrees.

Besides, a provider may report entries that are new or changed, and it may add events without bytes
to whatever it reports.

Nothing is assumed of how a provider answers requests for entries, of when it reports what it owes,
or of who stores and removes what.
-/

namespace GenerationalCache

variable {K V : Type}

/-- Bytes that were stored, and when. -/
structure Payload where
  /-- How many payloads were stored before. -/
  serial : Nat
  /-- The bytes. -/
  bytes : Bytes
  deriving DecidableEq

/-- Why entries leave a provider. -/
inductive Cause where
  /-- One was removed. -/
  | removal
  /-- All were removed. -/
  | clearance
  /-- Some expired. -/
  | expiry
  deriving DecidableEq

namespace Cause

/-- The kind of events that a provider reports. -/
def kind : Cause → EventKind
  | removal | clearance => .removed
  | expiry => .expired

/-- The reason that listeners are given. -/
def reason : Cause → Reason
  | removal | clearance => .invalidated
  | expiry => .expired

/-- These are the entries to leave. -/
def Takes (held : K → Option Payload) (taken : List (K × Payload)) : Cause → Prop
  | removal => taken.length = 1
  | clearance => ∀ k p, held k = some p → (k, p) ∈ taken
  | expiry => True

end Cause

/-- Entries that have left a provider together. -/
structure Departure (K : Type) where
  /-- The provider that they have left. -/
  provider : Handle
  /-- Why they have left it. -/
  cause : Cause
  /-- The entries, in the order of the provider. -/
  taken : List (K × Payload)
  /-- How many adapters were attached. -/
  adapters : Nat
  deriving DecidableEq

namespace Departure

/-- The payloads that have left. -/
def payloads (d : Departure K) : List Payload := d.taken.map Prod.snd

/-- The values that have left, in the order of the provider. -/
def values (serializer : Serializer V) (d : Departure K) : List V :=
  d.payloads.filterMap fun p => (serializer.decode (some p.bytes)).1

/-- What a listener is told: the values for this reason, or nothing if there is no value. -/
def batches (serializer : Serializer V) (d : Departure K) : List (Batch V) :=
  Batch.ofValues (d.values serializer) d.cause.reason

end Departure

/-- The key and the bytes of an event that carries bytes. -/
def EntryEvent.carried? (e : EntryEvent K) : Option (K × Bytes) := e.payload.map (e.key, ·)

namespace Conversation.Event

/-- A provider is asked to report, or replies to that. -/
def registers : Event K V → Bool
  | asked (.register _) => true
  | replied ⟨.register _, _⟩ => true
  | _ => false

/-- A provider reports. -/
def reports : Event K V → Bool
  | reported _ _ => true
  | _ => false

/-- What each listener is to be told for an event: the values of a report that is about entries
that have left, in the order of the provider, or nothing if there is no value. -/
def batches (serializer : Serializer V) : Event K V → List (Batch V)
  | reported .removed changes =>
    Batch.ofValues (changes.filterMap fun e => (serializer.decode e.payload).1) .invalidated
  | reported .expired changes =>
    Batch.ofValues (changes.filterMap fun e => (serializer.decode e.payload).1) .expired
  | _ => []

theorem batches_of_carries (serializer : Serializer V) {d : Departure K}
    {changes : List (EntryEvent K)}
    (carries : changes.filterMap EntryEvent.carried? = d.taken.map fun kp => (kp.1, kp.2.bytes)) :
    (Event.reported d.cause.kind changes).batches serializer = d.batches serializer := by
  have hvalues : (changes.filterMap fun e => (serializer.decode e.payload).1) =
      d.values serializer := by
    have hread : (fun e : EntryEvent K => (serializer.decode e.payload).1) =
        fun e => e.carried?.bind fun kb => (serializer.decode (some kb.2)).1 := by
      funext e
      obtain ⟨key, payload⟩ := e
      cases payload <;> rfl
    rw [hread, ← List.filterMap_filterMap, carries, List.filterMap_map, Departure.values,
      Departure.payloads, List.filterMap_map]
    rfl
  cases hcause : d.cause with
  | removal | clearance | expiry => simp [Event.batches, Cause.kind, Departure.batches, hvalues,
      hcause, Cause.reason]

theorem batches_of_mentions (serializer : Serializer V) {kind : EventKind}
    (changes : List (EntryEvent K)) (mentions : kind = .created ∨ kind = .updated) :
    (Event.reported kind changes).batches serializer = [] := by
  rcases mentions with rfl | rfl <;> rfl

theorem batches_of_empty (serializer : Serializer V) (kind : EventKind)
    {changes : List (EntryEvent K)} (empty : ∀ e ∈ changes, e.payload = none) :
    (Event.reported kind changes).batches serializer = [] := by
  have hnone : (changes.filterMap fun e => (serializer.decode e.payload).1) = [] :=
    List.filterMap_eq_nil_iff.mpr fun e he => by rw [empty e he]; rfl
  cases kind with
  | created | updated => rfl
  | removed | expired => simp [Event.batches, hnone, Batch.ofValues]

theorem batches_of_not_reports (serializer : Serializer V) {e : Event K V}
    (h : e.reports = false) : e.batches serializer = [] := by
  cases e with
  | reported => cases h
  | _ => rfl

end Conversation.Event

namespace Conversation

/-- How far a cache has got with its adapter. -/
inductive Enrolment where
  /-- Nobody reports to it. -/
  | idle
  /-- It is asking this provider to report. -/
  | asking (h : Handle)
  /-- This provider has agreed. -/
  | agreed (h : Handle)

/-- What an event means for the adapter. -/
inductive Enrolment.Step : Enrolment → Event K V → Enrolment → Prop where
  | asked (h : Handle) : Step .idle (.asked (.register h)) (.asking h)
  | agreed (h : Handle) : Step (.asking h) (.replied ⟨.register h, .ok ()⟩) (.agreed h)
  | refused (h : Handle) (failure : CacheFailure) :
      Step (.asking h) (.replied ⟨.register h, .error failure⟩) .idle
  | aside (st : Enrolment) {e : Event K V} (registers : e.registers = false) : Step st e st

/-- A cache asks one provider after the other, until one agrees. -/
inductive Enrols : List (Event K V) → Enrolment → Prop where
  | start : Enrols [] .idle
  | snoc {history : List (Event K V)} {st st' : Enrolment} {e : Event K V}
      (earlier : Enrols history st) (step : st.Step e st') : Enrols (history ++ [e]) st'

theorem Enrols.of_snoc {history : List (Event K V)} {e : Event K V} {st' : Enrolment}
    (h : Enrols (history ++ [e]) st') :
    ∃ st, Enrols history st ∧ st.Step e st' := by
  generalize heq : history ++ [e] = l at h
  cases h with
  | start => simp at heq
  | snoc earlier step =>
      obtain ⟨rfl, he⟩ := List.append_inj' heq rfl
      obtain rfl := List.singleton_inj.mp he
      exact ⟨_, earlier, step⟩

end Conversation

/-- The state of all providers of a cache. -/
structure Custody (K : Type) where
  /-- The entries. -/
  held : Handle → K → Option Payload := fun _ _ => none
  /-- How many payloads have been stored. -/
  stored : Nat := 0
  /-- The payloads that others have displaced. -/
  overwritten : List Payload := []
  /-- The providers that are being asked to report and have not attached the adapter. -/
  asking : List Handle := []
  /-- Those that have, and are going to agree. -/
  attaching : List Handle := []
  /-- The providers of all adapters that are attached. -/
  adapters : List Handle := []
  /-- What has left. -/
  departures : List (Departure K) := []
  /-- What an adapter is still to be told. -/
  owed : List (Departure K) := []

namespace Custody

open Conversation

/-- Every departure, once for each adapter that was attached. -/
def announced (c : Custody K) : List (Departure K) :=
  c.departures.flatMap fun d => .replicate d.adapters d

/-- The payloads that have been displaced or have left. -/
def gone (c : Custody K) : List Payload := c.overwritten ++ c.departures.flatMap Departure.payloads

/-- The adapters that are attached, or about to be, at each stage. -/
def At (c : Custody K) : Enrolment → Prop
  | .idle => c.asking = [] ∧ c.attaching = [] ∧ c.adapters = []
  | .asking h => c.asking = [h] ∧ c.attaching = [] ∧ c.adapters = [] ∨
    c.asking = [] ∧ c.attaching = [h] ∧ c.adapters = [h]
  | .agreed h => c.asking = [] ∧ c.attaching = [] ∧ c.adapters = [h]

theorem At.length_adapters_le {c : Custody K} {st : Enrolment} (h : c.At st) :
    c.adapters.length ≤ 1 := by
  cases st with
  | idle => simp [h.2.2]
  | agreed => simp [h.2.2]
  | asking =>
      rcases h with ⟨-, -, h⟩ | ⟨-, -, h⟩
      · simp [h]
      · simp [h]

/-- No payload is in two places. -/
structure Distinct (c : Custody K) : Prop where
  /-- An entry holds a payload of its own. -/
  held : ∀ h k h' k' p p', c.held h k = some p → c.held h' k' = some p' →
    p.serial = p'.serial → h = h' ∧ k = k'
  /-- It is not among those that have gone. -/
  kept : ∀ h k p, c.held h k = some p → p.serial ∉ c.gone.map Payload.serial
  /-- Those have gone once. -/
  gone : (c.gone.map Payload.serial).Nodup
  /-- All of them have been stored. -/
  heldStored : ∀ h k p, c.held h k = some p → p.serial < c.stored
  /-- And so were those that have gone. -/
  goneStored : ∀ p ∈ c.gone, p.serial < c.stored

theorem distinct_start : ({} : Custody K).Distinct where
  held := fun h k h' k' p p' hp => by cases hp
  kept := fun h k p hp => by cases hp
  gone := .nil
  heldStored := fun h k p hp => by cases hp
  goneStored := fun p hp => by cases hp

variable [DecidableEq K]

/-- What a provider does by itself. -/
inductive Move : Custody K → Custody K → Prop where
  /-- Bytes are stored, whoever has put them. -/
  | store (c : Custody K) (h : Handle) (k : K) (bytes : Bytes) :
      Move c { c with
        held := fun h' k' => if h' = h ∧ k' = k then some ⟨c.stored, bytes⟩ else c.held h' k'
        stored := c.stored + 1
        overwritten := c.overwritten ++ (c.held h k).toList }
  /-- The adapter is attached. -/
  | attach {c : Custody K} {h : Handle} (asking : h ∈ c.asking) :
      Move c { c with
        asking := c.asking.erase h
        attaching := h :: c.attaching
        adapters := h :: c.adapters }
  /-- Entries are taken out. -/
  | depart {c : Custody K} (d : Departure K) (nonempty : d.taken ≠ [])
      (nodup : (d.taken.map Prod.fst).Nodup)
      (held : ∀ kp ∈ d.taken, c.held d.provider kp.1 = some kp.2)
      (takes : d.cause.Takes (c.held d.provider) d.taken)
      (attached : d.adapters = c.adapters.count d.provider) :
      Move c { c with
        held := fun h k =>
          if h = d.provider ∧ k ∈ d.taken.map Prod.fst then none else c.held h k
        departures := c.departures ++ [d]
        owed := c.owed ++ .replicate d.adapters d }

/-- What a provider makes of an event. -/
inductive Sees : Custody K → Event K V → Custody K → Prop where
  /-- It is asked to report. -/
  | asked (c : Custody K) (h : Handle) :
      Sees c (.asked (.register h)) { c with asking := h :: c.asking }
  /-- It agrees, and has attached the adapter. -/
  | agreed {c : Custody K} {h : Handle} (attaching : h ∈ c.attaching) :
      Sees c (.replied ⟨.register h, .ok ()⟩) { c with attaching := c.attaching.erase h }
  /-- It refuses, and has attached nothing. -/
  | refused {c : Custody K} {h : Handle} (failure : CacheFailure) (asking : h ∈ c.asking) :
      Sees c (.replied ⟨.register h, .error failure⟩) { c with asking := c.asking.erase h }
  /-- It tells an adapter what has left. Events without bytes may be among those with bytes. -/
  | reported {c : Custody K} {d : Departure K} {changes : List (EntryEvent K)} (owed : d ∈ c.owed)
      (carries : changes.filterMap EntryEvent.carried? = d.taken.map fun kp => (kp.1, kp.2.bytes)) :
      Sees c (.reported d.cause.kind changes) { c with owed := c.owed.erase d }
  /-- It tells of entries that are new or changed. -/
  | mentioned (c : Custody K) {kind : EventKind} (changes : List (EntryEvent K))
      (mentions : kind = .created ∨ kind = .updated) : Sees c (.reported kind changes) c
  /-- It tells of something without bytes. -/
  | hinted (c : Custody K) (kind : EventKind) {changes : List (EntryEvent K)}
      (empty : ∀ e ∈ changes, e.payload = none) : Sees c (.reported kind changes) c
  /-- Anything else does not concern its entries or its adapters. -/
  | aside (c : Custody K) {e : Event K V} (registers : e.registers = false)
      (reports : e.reports = false) : Sees c e c

/-- The providers have had a part in this history, and are now in this state. -/
inductive Run : List (Event K V) → Custody K → Prop where
  | start : Run [] {}
  | move {history : List (Event K V)} {c c' : Custody K} (earlier : Run history c)
      (move : c.Move c') : Run history c'
  | sees {history : List (Event K V)} {c c' : Custody K} {e : Event K V} (earlier : Run history c)
      (sees : c.Sees e c') : Run (history ++ [e]) c'

/-! ## Every departure is reported once to each adapter -/

variable {history : List (Event K V)} {c c' : Custody K}

/-- What has been reported and what is still owed is what has left. -/
theorem Run.perm (serializer : Serializer V) (h : Run history c) :
    (history.flatMap (Event.batches serializer) ++
      c.owed.flatMap (Departure.batches serializer)).Perm
      (c.announced.flatMap (Departure.batches serializer)) := by
  induction h with
  | start => exact .refl _
  | move _ move ih =>
      cases move with
      | store | attach => exact ih
      | depart d =>
          simp only [announced, List.flatMap_append, List.flatMap_singleton] at ih ⊢
          rw [← List.append_assoc]
          exact ih.append_right _
  | @sees history c c' e _ sees ih =>
      rw [List.flatMap_append, List.flatMap_singleton]
      -- only a report has batches, and it pays off one of the departures that are owed
      have hquiet : e.batches serializer = [] → c'.owed = c.owed → c'.announced = c.announced →
          (history.flatMap (Event.batches serializer) ++ e.batches serializer ++
            c'.owed.flatMap (Departure.batches serializer)).Perm
            (c'.announced.flatMap (Departure.batches serializer)) := by
        intro hnone howed hannounced
        rwa [hnone, List.append_nil, howed, hannounced]
      cases sees with
      | asked | agreed | refused => exact hquiet rfl rfl rfl
      | mentioned changes mentions => exact hquiet (Event.batches_of_mentions _ _ mentions) rfl rfl
      | hinted kind empty => exact hquiet (Event.batches_of_empty _ kind empty) rfl rfl
      | aside _ reports => exact hquiet (Event.batches_of_not_reports _ reports) rfl rfl
      | @reported d changes owed carries =>
          rw [Event.batches_of_carries serializer carries, List.append_assoc, ← List.flatMap_cons]
          exact ((List.perm_cons_erase owed).symm.flatMap_right _ |>.append_left _).trans ih

/-! ## Every payload is displaced, or leaves, at most once -/

/-- A payload that is stored is in one place, and the one that it displaces has gone. -/
theorem Distinct.store (hc : c.Distinct) (h : Handle) (k : K) (bytes : Bytes) :
    ({ c with
      held := fun h' k' => if h' = h ∧ k' = k then some ⟨c.stored, bytes⟩ else c.held h' k'
      stored := c.stored + 1
      overwritten := c.overwritten ++ (c.held h k).toList } : Custody K).Distinct := by
  have hgone : ({ c with
      held := fun h' k' => if h' = h ∧ k' = k then some ⟨c.stored, bytes⟩ else c.held h' k'
      stored := c.stored + 1
      overwritten := c.overwritten ++ (c.held h k).toList } : Custody K).gone.Perm
      ((c.held h k).toList ++ c.gone) := by
    simp only [Custody.gone, List.append_assoc]
    exact List.perm_append_comm_assoc _ _ _
  have hlt : ∀ p ∈ (c.held h k).toList ++ c.gone, p.serial < c.stored := by
    intro p hp
    rcases List.mem_append.mp hp with hp | hp
    · exact hc.heldStored h k p (Option.mem_toList.mp hp)
    · exact hc.goneStored p hp
  -- an entry under another key is neither the new payload nor the one that it displaces
  have hold : ∀ h' k' p, ¬ (h' = h ∧ k' = k) → c.held h' k' = some p →
      p.serial ≠ c.stored ∧ p.serial ∉ ((c.held h k).toList ++ c.gone).map Payload.serial := by
    intro h' k' p hne hp
    refine ⟨Nat.ne_of_lt (hc.heldStored h' k' p hp), fun hmem => ?_⟩
    obtain ⟨q, hq, hserial⟩ := List.mem_map.mp hmem
    rcases List.mem_append.mp hq with hq | hq
    · exact hne (hc.held h' k' h k p q hp (Option.mem_toList.mp hq) hserial.symm)
    · exact hc.kept h' k' p hp (hserial ▸ List.mem_map_of_mem hq)
  refine ⟨?_, ?_, ?_, ?_, ?_⟩
  · intro h₁ k₁ h₂ k₂ p₁ p₂ hp₁ hp₂ hserial
    dsimp only at hp₁ hp₂
    split at hp₁ <;> split at hp₂
    · rename_i h₁ h₂
      exact ⟨h₁.1.trans h₂.1.symm, h₁.2.trans h₂.2.symm⟩
    · rename_i hne
      cases hp₁
      exact absurd hserial.symm (hold _ _ _ hne hp₂).1
    · rename_i hne _
      cases hp₂
      exact absurd hserial (hold _ _ _ hne hp₁).1
    · exact hc.held _ _ _ _ _ _ hp₁ hp₂ hserial
  · intro h' k' p hp hmem
    have hmem' := (hgone.map Payload.serial).subset hmem
    dsimp only at hp
    split at hp
    · cases hp
      obtain ⟨q, hq, hserial⟩ := List.mem_map.mp hmem'
      exact absurd hserial (Nat.ne_of_lt (hlt q hq))
    · rename_i hne
      exact (hold _ _ _ hne hp).2 hmem'
  · refine (hgone.map Payload.serial).nodup_iff.mpr ?_
    rw [List.map_append]
    cases hk : c.held h k with
    | none => exact hc.gone
    | some q => exact List.nodup_cons.mpr ⟨hc.kept h k q hk, hc.gone⟩
  · intro h' k' p hp
    dsimp only at hp ⊢
    split at hp
    · cases hp
      exact Nat.lt_succ_self _
    · exact Nat.lt_succ_of_lt (hc.heldStored h' k' p hp)
  · exact fun p hp => Nat.lt_succ_of_lt (hlt p (hgone.subset hp))

/-- Payloads that leave are in no other place. -/
theorem Distinct.depart (hc : c.Distinct) {d : Departure K} (nodup : (d.taken.map Prod.fst).Nodup)
    (held : ∀ kp ∈ d.taken, c.held d.provider kp.1 = some kp.2) :
    ({ c with
      held := fun h k => if h = d.provider ∧ k ∈ d.taken.map Prod.fst then none else c.held h k
      departures := c.departures ++ [d]
      owed := c.owed ++ .replicate d.adapters d } : Custody K).Distinct := by
  have hgone : ({ c with
      held := fun h k => if h = d.provider ∧ k ∈ d.taken.map Prod.fst then none else c.held h k
      departures := c.departures ++ [d]
      owed := c.owed ++ .replicate d.adapters d } : Custody K).gone = c.gone ++ d.payloads := by
    simp [Custody.gone]
  have hpayload : ∀ p ∈ d.payloads, ∃ k ∈ d.taken.map Prod.fst, c.held d.provider k = some p := by
    intro p hp
    obtain ⟨kp, hkp, rfl⟩ := List.mem_map.mp hp
    exact ⟨kp.1, List.mem_map_of_mem hkp, held kp hkp⟩
  have hstays : ∀ h k p,
      (if h = d.provider ∧ k ∈ d.taken.map Prod.fst then none else c.held h k) = some p →
      c.held h k = some p ∧ ¬ (h = d.provider ∧ k ∈ d.taken.map Prod.fst) := by
    intro h k p hp
    split at hp
    · cases hp
    · exact ⟨hp, ‹_›⟩
  -- an entry that stays is one that was there, and none that has been taken
  refine ⟨?_, ?_, ?_, ?_, ?_⟩
  · exact fun h k h' k' p p' hp hp' =>
      hc.held h k h' k' p p' (hstays h k p hp).1 (hstays h' k' p' hp').1
  · intro h k p hp hmem
    obtain ⟨hp, hnot⟩ := hstays h k p hp
    rw [hgone, List.map_append] at hmem
    rcases List.mem_append.mp hmem with hmem | hmem
    · exact hc.kept h k p hp hmem
    · obtain ⟨q, hq, hserial⟩ := List.mem_map.mp hmem
      obtain ⟨k', hk', hq⟩ := hpayload q hq
      obtain ⟨rfl, rfl⟩ := hc.held h k d.provider k' p q hp hq hserial.symm
      exact hnot ⟨rfl, hk'⟩
  · rw [hgone, List.map_append]
    refine List.nodup_append.mpr ⟨hc.gone, ?_, ?_⟩
    · rw [Departure.payloads, List.map_map]
      refine List.Nodup.map_on (fun a ha b hb hserial => ?_) (List.Nodup.of_map _ nodup)
      have hkey := (hc.held _ _ _ _ _ _ (held a ha) (held b hb) hserial).2
      exact List.inj_on_of_nodup_map nodup ha hb hkey
    · rintro n hn m hm rfl
      obtain ⟨p, hp, rfl⟩ := List.mem_map.mp hm
      obtain ⟨k, -, hk⟩ := hpayload p hp
      exact hc.kept _ _ _ hk hn
  · exact fun h k p hp => hc.heldStored h k p (hstays h k p hp).1
  · intro p hp
    rcases List.mem_append.mp (hgone ▸ hp) with hp | hp
    · exact hc.goneStored p hp
    · obtain ⟨k, -, hk⟩ := hpayload p hp
      exact hc.heldStored _ _ _ hk

theorem Run.distinct (h : Run history c) : c.Distinct := by
  induction h with
  | start => exact distinct_start
  | move _ move ih =>
      cases move with
      | store h k bytes => exact ih.store h k bytes
      | attach => exact ⟨ih.held, ih.kept, ih.gone, ih.heldStored, ih.goneStored⟩
      | depart d _ nodup held => exact ih.depart nodup held
  | sees _ sees ih =>
      cases sees <;> exact ⟨ih.held, ih.kept, ih.gone, ih.heldStored, ih.goneStored⟩

/-! ## There is one adapter -/

/-- **At most one adapter is ever attached.** -/
theorem Run.at (h : Run history c) {st : Enrolment} (hst : Enrols history st) :
    c.At st ∧ ∀ d ∈ c.departures, d.adapters ≤ 1 := by
  induction h generalizing st with
  | start =>
      generalize heq : ([] : List (Event K V)) = l at hst
      cases hst with
      | start => exact ⟨⟨rfl, rfl, rfl⟩, List.forall_mem_nil _⟩
      | snoc => simp at heq
  | move _ move ih =>
      obtain ⟨hat, hle⟩ := ih hst
      cases move with
      | store => exact ⟨by cases st <;> exact hat, hle⟩
      | attach asking =>
          refine ⟨?_, hle⟩
          cases st with
          | idle | agreed => simp [hat.1] at asking
          | asking h' =>
              -- it has not attached the adapter yet, since it is still being asked
              rcases hat with ⟨hasking, hattaching, hadapters⟩ | ⟨hasking, -⟩
              · obtain rfl : _ = h' := by simpa [hasking] using asking
                exact .inr ⟨by simp [hasking], by simp [hattaching], by simp [hadapters]⟩
              · simp [hasking] at asking
      | depart d _ _ _ _ attached =>
          refine ⟨by cases st <;> exact hat, fun d' hd' => ?_⟩
          rcases List.mem_append.mp hd' with hd' | hd'
          · exact hle d' hd'
          · obtain rfl := List.mem_singleton.mp hd'
            exact attached ▸ Nat.le_trans List.count_le_length hat.length_adapters_le
  | sees _ sees ih =>
      -- the event takes the cache from one stage to the next, and the provider along with it
      obtain ⟨st₀, hst₀, step⟩ := hst.of_snoc
      obtain ⟨hat, hle⟩ := ih hst₀
      cases sees with
      | asked h =>
          refine ⟨?_, hle⟩
          cases step with
          | asked =>
              obtain ⟨hasking, hattaching, hadapters⟩ := hat
              exact .inl ⟨by simp [hasking], hattaching, hadapters⟩
          | aside _ registers => cases registers
      | agreed attaching =>
          refine ⟨?_, hle⟩
          cases step with
          | agreed h =>
              rcases hat with ⟨-, hattaching, -⟩ | ⟨hasking, hattaching, hadapters⟩
              · simp [hattaching] at attaching
              · exact ⟨hasking, by simp [hattaching], hadapters⟩
          | aside _ registers => cases registers
      | refused failure asking =>
          refine ⟨?_, hle⟩
          cases step with
          | refused h =>
              rcases hat with ⟨hasking, hattaching, hadapters⟩ | ⟨hasking, -, -⟩
              · exact ⟨by simp [hasking], hattaching, hadapters⟩
              · simp [hasking] at asking
          | aside _ registers => cases registers
      | reported | mentioned | hinted =>
          cases step with
          | aside => exact ⟨by cases st <;> exact hat, hle⟩
      | aside registers =>
          cases step with
          | aside => exact ⟨hat, hle⟩
          | asked | agreed | refused => cases registers

end Custody

end GenerationalCache
