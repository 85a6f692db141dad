import GenerationalCache.Proofs.Hearing
import GenerationalCache.Proofs.SelfDelimiting
import GenerationalCache.Proofs.Transparency

/-!
# Bytes that are cut short

A provider may lose the end of what it was given. The reader always notices: bytes that a value's
bytes begin with, and that are not all of them, hold no value. What it says depends on the first byte
that is missing. It is one of a length or a flag, or it is one of a text whose length has been read,
and each byte of a value is of one of these two kinds.

For the cache such bytes are no failure. A lookup that gets them is a miss, and a report that carries
them tells the listeners of everything else.
-/

namespace GenerationalCache

namespace Wire

/-! ## What each byte is good for -/

/-- Reading meets an end, of the bytes or of a text. -/
def Failure.IsEnd (loss : Failure) : Prop := loss = .endOfBytes ∨ loss = .endOfText

/-- A missing byte of a number is told as an end of the bytes. -/
def wordLosses : List Failure := List.replicate 8 .endOfBytes

/-- So is one of the length of a text, while a byte of the text itself is told as an end of a text. -/
def textLosses (s : String) : List Failure :=
  wordLosses ++ List.replicate (Text.Utf8.encode s).length .endOfText

/-- First the length of a list, then the elements. -/
def listLosses {α : Type} (losses : α → List Failure) (xs : List α) : List Failure :=
  wordLosses ++ xs.flatMap losses

/-- First the name of a credential, then its value. -/
def credentialLosses (p : String × String) : List Failure := textLosses p.1 ++ textLosses p.2

/-- The parts of a subject, the last of which is a flag. -/
def subjectLosses (s : Subject) : List Failure :=
  listLosses textLosses s.principals.items ++
    (listLosses credentialLosses s.publicCredentials.pairs ++
      (listLosses credentialLosses s.privateCredentials.pairs ++ [.endOfBytes]))

/-- First the subject, then the keys. -/
def authResultLosses {K : Type} (losses : K → List Failure) (r : AuthResult K) : List Failure :=
  subjectLosses r.subject ++ listLosses losses r.lookupKeys

theorem word_of_length_lt {bytes : List UInt8} (h : bytes.length < 8) :
    Decoder.word bytes = .error .endOfBytes := by
  unfold Decoder.word
  split
  · simp only [List.length_cons] at h
    omega
  · rfl

theorem length_wordLosses : wordLosses.length = 8 := List.length_replicate

theorem eq_endOfBytes_of_mem {loss : Failure} (h : loss ∈ wordLosses) : loss = .endOfBytes :=
  (List.mem_replicate.mp h).2

theorem isEnd_of_mem_textLosses {s : String} : ∀ loss ∈ textLosses s, loss.IsEnd :=
  List.forall_mem_append.mpr ⟨fun _ h => .inl (eq_endOfBytes_of_mem h),
    fun _ h => .inr (List.mem_replicate.mp h).2⟩

theorem isEnd_of_mem_listLosses {α : Type} {losses : α → List Failure}
    (h : ∀ x, ∀ loss ∈ losses x, loss.IsEnd) (xs : List α) :
    ∀ loss ∈ listLosses losses xs, loss.IsEnd := by
  refine List.forall_mem_append.mpr ⟨fun _ hloss => .inl (eq_endOfBytes_of_mem hloss), ?_⟩
  intro loss hloss
  obtain ⟨x, -, hx⟩ := List.mem_flatMap.mp hloss
  exact h x loss hx

theorem isEnd_of_mem_subjectLosses (s : Subject) : ∀ loss ∈ subjectLosses s, loss.IsEnd := by
  have hcredential : ∀ p, ∀ loss ∈ credentialLosses p, loss.IsEnd := fun _ =>
    List.forall_mem_append.mpr ⟨isEnd_of_mem_textLosses, isEnd_of_mem_textLosses⟩
  exact List.forall_mem_append.mpr ⟨isEnd_of_mem_listLosses (fun _ => isEnd_of_mem_textLosses) _,
    List.forall_mem_append.mpr ⟨isEnd_of_mem_listLosses hcredential _,
      List.forall_mem_append.mpr ⟨isEnd_of_mem_listLosses hcredential _,
        List.forall_mem_singleton.mpr (.inl rfl)⟩⟩⟩

/-! ## Reading up to the cut -/

namespace Format

variable {α β : Type} {f : Format α} {g : Format β} {fits : α → Prop} {fits' : β → Prop}
  {losses : α → List Failure} {losses' : β → List Failure}

/-- Reading the bytes of a value up to some place fails as the byte at that place says. -/
structure Breaks (f : Format α) (fits : α → Prop) (losses : α → List Failure) : Prop where
  /-- There is one failure for each byte. -/
  length : ∀ a, (losses a).length = (f.encode a).length
  /-- The one of the first missing byte is the one that is met. -/
  fails : ∀ a, fits a → ∀ n loss, (losses a)[n]? = some loss →
    f.decode ((f.encode a).take n) = .error loss

/-- A cut through two parts, the first as long as what can be lost of it, falls into the first or
leaves it whole. -/
theorem cut_append {bytes : List UInt8} (bytes' : List UInt8) {lost lost' : List Failure} {n : Nat}
    {loss : Failure} (hlength : lost.length = bytes.length) (h : (lost ++ lost')[n]? = some loss) :
    (lost[n]? = some loss ∧ (bytes ++ bytes').take n = bytes.take n) ∨
      (lost'[n - bytes.length]? = some loss ∧
        (bytes ++ bytes').take n = bytes ++ bytes'.take (n - bytes.length)) := by
  rw [List.take_append]
  by_cases hcut : n < bytes.length
  · rw [List.getElem?_append_left (hlength ▸ hcut)] at h
    rw [Nat.sub_eq_zero_of_le (Nat.le_of_lt hcut), List.take_zero, List.append_nil]
    exact .inl ⟨h, rfl⟩
  · have hle : bytes.length ≤ n := Nat.le_of_not_lt hcut
    rw [List.getElem?_append_right (hlength ▸ hle), hlength] at h
    rw [List.take_of_length_le hle]
    exact .inr ⟨h, rfl⟩

/-- A cut falls into the first value, or the first one is read and the cut falls into the second. -/
theorem Breaks.pair (hf : f.Breaks fits losses) (hread : f.Faithful fits)
    (hg : g.Breaks fits' losses') :
    (f.pair g).Breaks (fun p => fits p.1 ∧ fits' p.2) (fun p => losses p.1 ++ losses' p.2) where
  length p := by
    simp only [Format.pair, List.length_append, hf.length, hg.length]
  fails := by
    rintro ⟨a, b⟩ ⟨ha, hb⟩ n loss hloss
    simp only [Format.pair, Decoder.pair]
    rcases cut_append (g.encode b) (hf.length a) hloss with ⟨h, hcut⟩ | ⟨h, hcut⟩
    · simp only [hcut, hf.fails a ha n loss h]
    · simp only [hcut, hread a ha, hg.fails b hb _ loss h, Except.map]

theorem Breaks.via (hf : f.Breaks fits losses) (wrap : α → β) (unwrap : β → α) :
    (f.via wrap unwrap).Breaks (fun b => fits (unwrap b)) (fun b => losses (unwrap b)) where
  length b := hf.length (unwrap b)
  fails b hb n loss hloss := by
    simp only [Format.via, Decoder.map, hf.fails (unwrap b) hb n loss hloss, Except.map]

/-- The elements before the cut are read, and the one in which it falls is not. -/
theorem Breaks.times (hf : f.Breaks fits losses) (hread : f.Faithful fits) (xs : List α)
    (hxs : ∀ x ∈ xs, fits x) (n : Nat) (loss : Failure)
    (hloss : (xs.flatMap losses)[n]? = some loss) :
    f.decode.times xs.length ((xs.flatMap f.encode).take n) = .error loss := by
  induction xs generalizing n with
  | nil => simp at hloss
  | cons x xs ih =>
      obtain ⟨hx, hrest⟩ := List.forall_mem_cons.mp hxs
      simp only [List.flatMap_cons, List.length_cons, Decoder.times] at hloss ⊢
      rcases cut_append (xs.flatMap f.encode) (hf.length x) hloss with
        ⟨h, hcut⟩ | ⟨h, hcut⟩
      · simp only [hcut, hf.fails x hx n loss h]
      · simp only [hcut, hread x hx, ih hrest _ h, Except.map]

/-- A cut behind a word falls into the word, or leaves it whole. -/
theorem cut_word (w : UInt64) (rest : List UInt8) {lost : List Failure} {n : Nat} {loss : Failure}
    (h : (wordLosses ++ lost)[n]? = some loss) :
    (loss = .endOfBytes ∧ Decoder.word ((encodeWord w ++ rest).take n) = .error .endOfBytes) ∨
      (lost[n - 8]? = some loss ∧
        Decoder.word ((encodeWord w ++ rest).take n) = .ok (w, rest.take (n - 8))) := by
  have hlength : wordLosses.length = (encodeWord w).length :=
    length_wordLosses.trans (length_encodeWord w).symm
  rcases cut_append rest hlength h with ⟨h, hcut⟩ | ⟨h, hcut⟩
  · have hn : n < 8 := length_wordLosses ▸ (List.getElem?_eq_some_iff.mp h).1
    refine .inl ⟨eq_endOfBytes_of_mem (List.mem_of_getElem? h), word_of_length_lt ?_⟩
    rw [List.length_take]
    omega
  · rw [length_encodeWord] at h hcut
    exact .inr ⟨h, by rw [hcut, word_encodeWord]⟩

theorem Breaks.list (hf : f.Breaks fits losses) (hread : f.Faithful fits) :
    f.list.Breaks (ListFits fits) (listLosses losses) where
  length xs := by
    simp only [Format.list, encodeSequence, listLosses, List.length_append, length_encodeWord,
      length_wordLosses, List.length_flatMap, hf.length]
  fails xs hxs n loss hloss := by
    simp only [Format.list, encodeSequence, Decoder.sequence]
    rcases cut_word (.ofNat xs.length) (xs.flatMap f.encode) hloss with
      ⟨rfl, hword⟩ | ⟨h, hword⟩
    · simp only [hword]
    · simp only [hword, UInt64.toNat_ofNat_of_lt' hxs.1, hf.times hread xs hxs.2 _ loss h]

/-- What is left of a text is shorter than its length says, whatever it is. -/
theorem breaks_text : text.Breaks TextFits textLosses where
  length s := by
    simp only [text, encodeText, textLosses, List.length_append, length_encodeWord,
      length_wordLosses, List.length_replicate]
  fails s hs n loss hloss := by
    simp only [text, encodeText, Decoder.text]
    rcases cut_word (.ofNat (Text.Utf8.encode s).length) (Text.Utf8.encode s) hloss with
      ⟨rfl, hword⟩ | ⟨h, hword⟩
    · simp only [hword]
    · obtain ⟨hlt, rfl⟩ : n - 8 < (Text.Utf8.encode s).length ∧ loss = .endOfText := by
        simpa [List.getElem?_replicate, eq_comm] using h
      have hshort : ((Text.Utf8.encode s).take (n - 8)).length < (Text.Utf8.encode s).length := by
        rw [List.length_take]
        omega
      simp only [hword, UInt64.toNat_ofNat_of_lt' hs, Decoder.textOf, if_pos hshort]

theorem breaks_flag : flag.Breaks (fun _ => True) (fun _ => [.endOfBytes]) where
  length _ := rfl
  fails b _ n loss hloss := by
    match n with
    | 0 => exact congrArg Except.error (Option.some.inj hloss)
    | n + 1 => simp at hloss

theorem breaks_textSet :
    textSet.Breaks (fun s => ListFits TextFits s.items) (fun s => listLosses textLosses s.items) :=
  (breaks_text.list faithful_text).via _ _

theorem breaks_textMap :
    textMap.Breaks (fun m => ListFits CredentialFits m.pairs)
      (fun m => listLosses credentialLosses m.pairs) :=
  ((breaks_text.pair faithful_text breaks_text).list (faithful_text.pair faithful_text)).via _ _

theorem breaks_subject : subject.Breaks SubjectFits subjectLosses := by
  have h : subject.Breaks _ _ := (breaks_textSet.pair faithful_textSet (breaks_textMap.pair
    faithful_textMap (breaks_textMap.pair faithful_textMap breaks_flag))).via _ _
  exact ⟨h.length, fun s hs =>
    h.fails s ⟨hs.principals, hs.publicCredentials, hs.privateCredentials, trivial⟩⟩

theorem breaks_authResult {K : Type} {keys : Format K} {fits : K → Prop}
    {losses : K → List Failure} (hkeys : keys.Breaks fits losses) (hread : keys.Faithful fits) :
    (authResult keys).Breaks (AuthResultFits fits) (authResultLosses losses) := by
  have h : (authResult keys).Breaks _ _ :=
    (breaks_subject.pair faithful_subject (hkeys.list hread)).via _ _
  exact ⟨h.length, fun r hr => h.fails r ⟨hr.subject, hr.lookupKeys⟩⟩

end Format

/-- Bytes that the bytes of some value begin with, and that are not all of them. -/
def Format.IsCut {V : Type} (f : Format V) (fits : V → Prop) (bytes : List UInt8) : Prop :=
  ∃ x, fits x ∧ bytes <+: f.encode x ∧ bytes ≠ f.encode x

end Wire

/-! ## What the cache makes of them -/

namespace Conversation

variable {K V : Type} {serializer : Serializer V} {listeners : Nat} {s : Conversation K V}

theorem Settled.counted_of_get {c : Call K V} {trail : List (Exchange K V)} {a : c.Answer}
    (hs : Settled serializer c trail a) {h : Handle} {k : K} {bytes : Option Bytes}
    (hget : ⟨.get h k, .ok bytes⟩ ∈ trail) (counters : Counters) :
    counted trail (c.value? a) counters = counters.lookedUp (serializer.decode bytes).1.isSome := by
  obtain ⟨hservices, -, hvalue⟩ := hs.finds hget
  rw [hs.counted_eq, hservices, hvalue]
  cases (serializer.decode bytes).1 <;>
    simp [Exchange.isStored, Exchange.isRemoved, Counters.lookedUp]

/-- Apart from what has begun in the meantime, a lookup has counted what the bytes hold. -/
theorem Reachable.counters_of_get (hs : Reachable serializer listeners s)
    {earlier during later : List (Event K V)} {a : Answered K V}
    (heq : s.history = earlier ++ .began a.toBegun :: during ++ .answered a :: later)
    {h : Handle} {k : K} {bytes : Option Bytes} (hget : ⟨.get h k, .ok bytes⟩ ∈ a.trail) :
    a.left.counters =
      (tally during a.found.counters).lookedUp (serializer.decode bytes).1.isSome := by
  have hb := hs.booked
  have hbegan : a.found.counters = tally earlier {} :=
    hb.moments earlier (.began a.toBegun) (during ++ .answered a :: later) (by simpa using heq)
  obtain ⟨hsettled, hleft, -⟩ :=
    hb.moments (earlier ++ .began a.toBegun :: during) (.answered a) later heq
  rw [hleft, tally_concat, tally_append, hbegan]
  exact hsettled.counted_of_get hget _

end Conversation

/-- Payloads without a value make no difference to the calls of listeners. -/
theorem Receipt.calls_filter {K V : Type} (serializer : Serializer V) (listeners : Nat)
    (kind : EventKind) (changes : List (EntryEvent K)) (keep : EntryEvent K → Bool)
    (hdrop : ∀ e ∈ changes, keep e = false → (serializer.decode e.payload).1 = none) :
    (ofEvents serializer listeners kind (changes.filter keep)).calls =
      (ofEvents serializer listeners kind changes).calls := by
  have hvalues : (changes.filter keep).filterMap (fun e => (serializer.decode e.payload).1) =
      changes.filterMap fun e => (serializer.decode e.payload).1 := by
    rw [List.filterMap_filter]
    refine List.filterMap_congr fun e he => ?_
    cases hkeep : keep e with
    | true => rfl
    | false => exact (hdrop e he hkeep).symm
  cases kind with
  | created | updated => rfl
  | removed | expired => simp only [ofEvents, calls_forward, hvalues]

namespace Serializer

variable {V : Type}

open Conversation in
/-- What becomes of the bytes of values when they are cut short. -/
structure SeesCuts (f : Wire.Format V) (fits : V → Prop) (losses : V → List Wire.Failure) :
    Prop where
  /-- Every byte of a value has its failure. -/
  measures : ∀ x, (losses x).length = (f.encode x).length
  /-- What is left of a value holds no value, and the failure is that of the first missing byte:
  one of a length or of a flag, or one of a text. -/
  fails : ∀ x, fits x → ∀ bytes, bytes <+: f.encode x → bytes ≠ f.encode x →
    (losses x)[bytes.length]? = some .endOfBytes ∧ (ofFormat f).deserialize bytes =
        .error (.deserialization "io error: unexpected end of file") ∨
      (losses x)[bytes.length]? = some .endOfText ∧ (ofFormat f).deserialize bytes =
        .error (.deserialization "io error: ")
  /-- A lookup that has got such bytes comes to an answer, with nothing in between. -/
  answers : ∀ {K : Type} {listeners : Nat} {s : Conversation K V},
    Reachable (ofFormat f) listeners s →
    ∀ o trail rest below h k bytes, s.stack = .operation o trail (.running rest) :: below →
      ⟨.get h k, .ok (some bytes)⟩ ∈ trail → f.IsCut fits bytes →
      ∃ a left, Leads (ofFormat f) listeners s (s.close below ⟨o, trail, a, left⟩)
  /-- The answer is a placeholder. Apart from what has begun in the meantime, the lookup has counted
  one miss and nothing else. -/
  misses : ∀ {K : Type} {listeners : Nat} {s : Conversation K V},
    Reachable (ofFormat f) listeners s →
    ∀ (earlier during later : List (Event K V)) (a : Answered K V) h k bytes,
      s.history = earlier ++ .began a.toBegun :: during ++ .answered a :: later →
      ⟨.get h k, .ok (some bytes)⟩ ∈ a.trail → f.IsCut fits bytes →
      a.call.value? a.answer = some none ∧
        a.left.counters = (tally during a.found.counters).lookedUp false
  /-- Whatever is reported, the listeners are called as if such payloads were not among it. -/
  leavesOut : ∀ {K : Type} (listeners : Nat) (kind : EventKind) (changes : List (EntryEvent K))
    (keep : EntryEvent K → Bool),
    (∀ e ∈ changes, keep e = false → ∃ bytes, e.payload = some bytes ∧ f.IsCut fits bytes) →
    (Receipt.ofEvents (ofFormat f) listeners kind (changes.filter keep)).calls =
      (Receipt.ofEvents (ofFormat f) listeners kind changes).calls

/-- The bytes of a format that breaks where its bytes say are seen to be cut. -/
theorem seesCuts_of_breaks {f : Wire.Format V} {fits : V → Prop} {losses : V → List Wire.Failure}
    (hf : f.Breaks fits losses)
    (hlosses : ∀ x, ∀ loss ∈ losses x, loss.IsEnd) :
    SeesCuts f fits losses := by
  have hfails : ∀ x, fits x → ∀ bytes, bytes <+: f.encode x → bytes ≠ f.encode x →
      (losses x)[bytes.length]? = some .endOfBytes ∧ (ofFormat f).deserialize bytes =
          .error (.deserialization "io error: unexpected end of file") ∨
        (losses x)[bytes.length]? = some .endOfText ∧ (ofFormat f).deserialize bytes =
          .error (.deserialization "io error: ") := by
    intro x hx bytes hbegins hne
    have hlt : bytes.length < (losses x).length :=
      hf.length x ▸ Nat.lt_of_le_of_ne hbegins.length_le fun h => hne (hbegins.eq_of_length h)
    have hloss := List.getElem?_eq_getElem hlt
    have hdecode := hf.fails x hx bytes.length _ hloss
    rw [← List.prefix_iff_eq_take.mp hbegins] at hdecode
    rcases hlosses x _ (List.getElem_mem hlt) with h | h
    · rw [h] at hloss hdecode
      refine .inl ⟨hloss, ?_⟩
      simp only [ofFormat, Wire.Decoder.run, hdecode, Except.map]
      rfl
    · rw [h] at hloss hdecode
      refine .inr ⟨hloss, ?_⟩
      simp only [ofFormat, Wire.Decoder.run, hdecode, Except.map]
      rfl
  have hnone : ∀ bytes, f.IsCut fits bytes → ((ofFormat f).decode (some bytes)).1 = none := by
    rintro bytes ⟨x, hx, hbegins, hne⟩
    rcases hfails x hx bytes hbegins hne with ⟨-, h⟩ | ⟨-, h⟩ <;> simp only [decode, h]
  refine ⟨hf.length, hfails, ?_, ?_, ?_⟩
  · intro K listeners s hs o trail rest below h k bytes here hget _
    exact hs.answers here hget (.inl rfl)
  · intro K listeners s hs earlier during later a h k bytes heq hget hcut
    have ha : .answered a ∈ s.history := by simp [heq]
    obtain ⟨-, -, hvalue⟩ := (hs.booked.settled ha).finds hget
    have hcounters := hs.counters_of_get heq hget
    rw [hnone bytes hcut] at hvalue hcounters
    exact ⟨hvalue, hcounters⟩
  · intro K listeners kind changes keep hdrop
    refine Receipt.calls_filter _ listeners kind changes keep fun e he hkeep => ?_
    obtain ⟨bytes, hpayload, hcut⟩ := hdrop e he hkeep
    rw [hpayload]
    exact hnone bytes hcut

/-- **Bytes that are cut short hold no value**, whether they are those of a text, of a subject or of
an authentication result of texts. What reading them says is told by the first byte that is missing;
a lookup of them is a miss, and a report of them is one of everything else. -/
theorem cut_bytes_hold_nothing :
    SeesCuts .text Wire.TextFits Wire.textLosses ∧
    SeesCuts .subject Wire.SubjectFits Wire.subjectLosses ∧
    SeesCuts (.authResult .text) (Wire.AuthResultFits Wire.TextFits)
      (Wire.authResultLosses Wire.textLosses) :=
  ⟨seesCuts_of_breaks Wire.Format.breaks_text fun _ => Wire.isEnd_of_mem_textLosses,
    seesCuts_of_breaks Wire.Format.breaks_subject Wire.isEnd_of_mem_subjectLosses,
    seesCuts_of_breaks
      (Wire.Format.breaks_authResult Wire.Format.breaks_text Wire.Format.faithful_text)
      fun r => List.forall_mem_append.mpr ⟨Wire.isEnd_of_mem_subjectLosses r.subject,
        Wire.isEnd_of_mem_listLosses (fun _ => Wire.isEnd_of_mem_textLosses) r.lookupKeys⟩⟩

/-- **Not every cut is told as an end of the bytes.** A text of one letter loses the letter: its
length is read, and it is the text that has no end. -/
theorem cut_text_told_apart : ∃ bytes, (ofFormat .text).serialize "a" = .ok bytes ∧
    bytes.take 8 ≠ bytes ∧
    (ofFormat .text).deserialize (bytes.take 8) = .error (.deserialization "io error: ") ∧
    (ofFormat .text).deserialize (bytes.take 8) ≠
      .error (.deserialization "io error: unexpected end of file") := by
  have htext : (ofFormat .text).deserialize ((Wire.encodeText "a").take 8) =
      .error (.deserialization "io error: ") := rfl
  refine ⟨Wire.encodeText "a", rfl, by decide, htext, ?_⟩
  rw [htext]
  decide

end Serializer

end GenerationalCache
