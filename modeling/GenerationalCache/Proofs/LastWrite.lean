import GenerationalCache.Proofs.RoundTrip
import GenerationalCache.Proofs.Transparency

/-!
# What a lookup serves

A provider that keeps what was last put under each key gives it back, or nothing. So a lookup serves
the value that was last put, or misses. That is the value of the last insert that was accepted by the
serializer. A value that the serializer refuses is not put, and the insert answers all the same that
all is well; what was there before stays there, and later lookups serve it.
-/

namespace GenerationalCache

variable {K V : Type}

/-- Whatever the serializer writes it reads back. It may refuse to write. -/
def Serializer.Lossless (s : Serializer V) : Prop :=
  ∀ x bytes, s.serialize x = .ok bytes → s.deserialize bytes = .ok x

/-- Texts are read back from their bare bytes. -/
theorem Serializer.lossless_bareText : bareText.Lossless := by
  intro x bytes h
  unfold bareText at h
  dsimp only at h
  split at h
  · cases h
  · cases h
    simp only [bareText, Text.Utf8.decode_encode]

namespace Conversation

namespace Exchange

/-- Bytes were put under this key, and the provider took them. -/
def Puts (k : K) : Exchange K V → Prop
  | ⟨.put _ k' _, .ok ()⟩ => k' = k
  | _ => False

end Exchange

/-- Of all that was put under the key, these bytes were put last. -/
def LastPut (k : K) (bytes : Bytes) (ledger : List (Exchange K V)) : Prop :=
  ∃ before h after, ledger = before ++ ⟨.put h k bytes, .ok ()⟩ :: after ∧
    ∀ e ∈ after, ¬ e.Puts k

/-- The provider keeps what was last put under each key: if it gives anything back, it is that. A
ledger has all that it was asked for, in the order in which it has replied. -/
def KeepsLast (ledger : List (Exchange K V)) : Prop :=
  ∀ before h k bytes after last, ledger = before ++ ⟨.get h k, .ok (some bytes)⟩ :: after →
    LastPut k last before → bytes = last

/-- The operation has stored the value under the key: the serializer has bytes for it, and they were
put. -/
structure Answered.Writes (serializer : Serializer V) (k : K) (x : V) (a : Answered K V) :
    Prop where
  /-- It is an insert of the value under the key. -/
  call : a.call = .insert k x
  /-- It has not failed. -/
  succeeds : a.call.failure? a.answer = none
  /-- The value has bytes. -/
  accepts : ∃ bytes, serializer.serialize x = .ok bytes

namespace Settled

variable {serializer : Serializer V} {c : Call K V} {trail : List (Exchange K V)} {a : c.Answer}

/-- What was put was put by an insert of a value with bytes, which then succeeds. -/
theorem of_puts (hs : Settled serializer c trail a) {e : Exchange K V}
    (he : e ∈ trail.filter Exchange.isService) {k : K} (hputs : e.Puts k) :
    ∃ y bytes, c = .insert k y ∧ c.failure? a = none ∧ serializer.serialize y = .ok bytes := by
  cases hs with
  | alone => cases he
  | refused _ connects =>
      rw [connects.filter_isService] at he
      cases he
  | served _ connects serves =>
      rw [serves.filter_isService connects] at he
      cases serves with
      | insert k' accepts reply =>
          obtain rfl := List.mem_singleton.mp he
          cases reply with
          | error failure => exact hputs.elim
          | ok =>
              cases hputs
              exact ⟨_, _, rfl, rfl, accepts⟩
      | drop => cases he
      | _ =>
          obtain rfl := List.mem_singleton.mp he
          exact hputs.elim

/-- What an operation asks for, apart from connecting, it asks for when it is served. -/
theorem exists_served (hs : Settled serializer c trail a) (hc : c.NeedsProvider)
    (hok : c.failure? a = none) :
    ∃ h, Served serializer h c (trail.filter Exchange.isService) a := by
  cases hs with
  | alone _ halone => exact absurd hc halone
  | refused =>
      rw [Call.failure?_refusal hc] at hok
      cases hok
  | @served before own h _ _ connects serves =>
      rw [serves.filter_isService connects]
      exact ⟨h, serves⟩

/-- An insert of a value with bytes that succeeds has put them. -/
theorem of_insert {k : K} {x : V} {a : (Call.insert k x).Answer}
    (hs : Settled serializer (.insert k x) trail a) {bytes : Bytes}
    (accepts : serializer.serialize x = .ok bytes)
    (hok : (Call.insert k x).failure? a = none) :
    ∃ h, trail.filter Exchange.isService = [⟨.put h k bytes, .ok ()⟩] := by
  obtain ⟨h, hserved⟩ := hs.exists_served trivial hok
  generalize trail.filter Exchange.isService = own at hserved
  cases hserved with
  | insert _ accepts' =>
      cases accepts.symm.trans accepts'
      cases a with
      | error failure => cases hok
      | ok => exact ⟨h, rfl⟩
  | drop _ rejects => cases accepts.symm.trans rejects

/-- What a lookup answers with is the value of the bytes that it got. -/
theorem of_lookup (hs : Settled serializer c trail a) {k : K} (hl : c.LooksUp k)
    {found : Option V} (hfound : c.value? a = some found) :
    ∃ h bytes, trail.filter Exchange.isService = [⟨.get h k, .ok bytes⟩] ∧
      found = (serializer.decode bytes).1 := by
  have hneeds : c.NeedsProvider := by
    cases c with
    | lookup | get => trivial
    | _ => exact hl.elim
  have hok : c.failure? a = none := by
    cases c with
    | lookup | get =>
        cases a with
        | error => cases hfound
        | ok => rfl
    | _ => exact hl.elim
  obtain ⟨h, hserved⟩ := hs.exists_served hneeds hok
  generalize trail.filter Exchange.isService = own at hserved
  cases hserved with
  | lookup k' reply | get k' reply =>
      cases reply with
      | error => cases hok
      | ok bytes =>
          cases hl
          exact ⟨h, bytes, rfl, (Option.some.inj hfound).symm⟩
  | _ => exact hl.elim

end Settled

variable {serializer : Serializer V} {listeners : Nat} {s : Conversation K V}
  {k : K} {x : V}

/-- After an insert that writes, and as long as no other does, its bytes are those that were put
last. -/
theorem lastPut_of_writes {earlier since : List (Event K V)} {w : Answered K V} {bytes : Bytes}
    (hsettled : ∀ a, .answered a ∈ earlier ++ .answered w :: since →
      Settled serializer a.call a.trail a.answer)
    (hw : w.Writes serializer k x) (hx : serializer.serialize x = .ok bytes)
    (last : ∀ a, .answered a ∈ since → ∀ y, ¬ a.Writes serializer k y) :
    LastPut k bytes ((earlier ++ .answered w :: since).flatMap Event.services) := by
  obtain ⟨h, hput⟩ : ∃ h, w.services = [⟨.put h k bytes, .ok ()⟩] := by
    have hs := hsettled w (by simp)
    obtain ⟨⟨call, found⟩, trail, answer, left⟩ := w
    obtain ⟨rfl, hok, -⟩ := hw
    exact hs.of_insert hx hok
  refine ⟨earlier.flatMap Event.services, h, since.flatMap Event.services, ?_, ?_⟩
  · simp only [List.flatMap_append, List.flatMap_cons, Event.services, hput, List.cons_append,
      List.nil_append]
  · intro e he hputs
    obtain ⟨event, hevent, hservice⟩ := List.mem_flatMap.mp he
    cases event with
    | answered a =>
        obtain ⟨y, bytes, hcall, hok, hy⟩ := (hsettled a (by simp [hevent])).of_puts hservice hputs
        exact last a hevent y ⟨hcall, hok, bytes, hy⟩
    | _ => cases hservice

/-- **A lookup serves the last value that was written, or misses.** Of all inserts under its key that
have succeeded it is the last one that counts of those whose values the serializer accepts. -/
theorem serves_last_write (h : Reachable serializer listeners s) (lossless : serializer.Lossless)
    (keeps : KeepsLast (s.history.filterMap Event.service?))
    {earlier since later : List (Event K V)} {w g : Answered K V}
    (heq : s.history = earlier ++ .answered w :: since ++ .answered g :: later)
    (hw : w.Writes serializer k x)
    (last : ∀ a, .answered a ∈ since → ∀ y, ¬ a.Writes serializer k y)
    (hg : g.call.LooksUp k) :
    ∀ found, g.call.value? g.answer = some found → found = none ∨ found = some x := by
  intro found hfound
  obtain ⟨hsettled, -, hledger⟩ := h.booked.moments _ _ _ heq
  obtain ⟨bytes, hx⟩ := hw.accepts
  have hlast := lastPut_of_writes
    (fun a ha => h.booked.settled (heq ▸ List.mem_append_left _ ha)) hw hx last
  obtain ⟨handle, reply, hget, rfl⟩ := hsettled.of_lookup hg hfound
  cases reply with
  | none => exact .inl rfl
  | some bytes' =>
      -- the lookup is the last to have asked for anything before it answered
      have hhistory : s.history.filterMap Event.service? =
          (earlier ++ .answered w :: since).flatMap Event.services ++
            ⟨.get handle k, .ok (some bytes')⟩ :: later.filterMap Event.service? := by
        rw [heq, List.filterMap_append, hledger, Answered.services, hget, List.append_assoc]
        rfl
      obtain rfl := keeps _ _ _ _ _ _ hhistory hlast
      right
      simp only [Serializer.decode, lossless x bytes' hx]

/-- A provider gives back what was put. -/
theorem keepsLast_put_get (h : Handle) (k : K) (bytes : Bytes) :
    KeepsLast (V := V) [⟨.put h k bytes, .ok ()⟩, ⟨.get h k, .ok (some bytes)⟩] := by
  rintro before h' k' bytes' after last heq ⟨front, h'', back, rfl, -⟩
  match front, back with
  | [], [] =>
      cases heq
      rfl
  | [], e :: back => simp at heq
  | e :: front, back => cases front <;> simp at heq

/-- **A write that is refused leaves the value before it to be served.** A text is put, and the empty
text is inserted over it. The serializer refuses that, the insert answers that all is well, and the
next lookup finds the text. -/
theorem stale_after_refused : ∃ (s : Conversation Nat String)
    (earlier between since : List (Event Nat String)) (w r g : Answered Nat String),
    Reachable .bareText 0 s ∧ KeepsLast (s.history.filterMap Event.service?) ∧
      s.history = earlier ++ .answered w :: (between ++ .answered r :: since) ++ [.answered g] ∧
      w.Writes .bareText 7 "alice" ∧
      r.call = .insert 7 "" ∧ r.call.failure? r.answer = none ∧
      (∀ a, .answered a ∉ between ∧ .answered a ∉ since) ∧
      g.call = .get 7 ∧ g.call.value? g.answer = some (some "alice") := by
  have h : Reachable (K := Nat) .bareText 0 {} := .refl
  have h := h.tail (.begin _ (.insert 7 "alice") (List.forall_mem_nil _)) |>.tail (.access rfl)
    |>.tail (.ask rfl rfl) |>.tail (.reply rfl (.ok 0)) |>.tail (.access rfl)
    |>.tail (.ask rfl rfl) |>.tail (.reply rfl (.ok ())) |>.tail (.log rfl)
  have h := h.tail (.ask rfl rfl) |>.tail (.reply rfl (.ok ()))
  have h := h.tail (.access rfl) |>.tail (.answer rfl)
  have h := h.tail (.begin _ (.insert 7 "") (List.forall_mem_nil _)) |>.tail (.access rfl)
    |>.tail (.log rfl) |>.tail (.log rfl) |>.tail (.answer rfl)
  have h := h.tail (.begin _ (.get 7) (List.forall_mem_nil _)) |>.tail (.access rfl)
  have h := h.tail (.ask rfl rfl)
    |>.tail (.reply rfl (.ok (some (Text.Utf8.encode "alice"))))
  have h := h.tail (.log rfl) |>.tail (.access rfl) |>.tail (.answer rfl)
  refine ⟨_, [_, _, _, _, _, _, _], [_], [_, _, _], _, _, _, h, ?_, rfl, ⟨rfl, rfl, _, rfl⟩, rfl,
    rfl, fun a => by simp, rfl, rfl⟩
  exact keepsLast_put_get 0 7 _

/-- The lookup after a refused write serves the value before it, as said. -/
theorem serves_last_write_past_refused : ∃ (s : Conversation Nat String)
    (g : Answered Nat String), Reachable .bareText 0 s ∧ .answered g ∈ s.history ∧
      g.call = .get 7 ∧ g.call.value? g.answer = some (some "alice") ∧
      ∀ found, g.call.value? g.answer = some found → found = none ∨ found = some "alice" := by
  obtain ⟨s, earlier, between, since, w, r, g, h, keeps, heq, hw, hr, -, hnone, hg, hfound⟩ :=
    stale_after_refused
  refine ⟨s, g, h, by simp [heq], hg, hfound, ?_⟩
  refine serves_last_write h Serializer.lossless_bareText keeps heq hw ?_ (by rw [hg]; rfl)
  -- the only insert in between is refused
  intro a ha y hy
  rcases List.mem_append.mp ha with ha | ha
  · exact (hnone a).1 ha
  · rcases List.mem_cons.mp ha with ha | ha
    · cases ha
      obtain ⟨hcall, -, bytes, hbytes⟩ := hy
      rw [hr] at hcall
      cases hcall
      cases hbytes
    · exact (hnone a).2 ha

end Conversation

end GenerationalCache
