import GenerationalCache.Distributed.Serializer
import Mathlib.Tactic.SplitIfs

/-!
# What is written is read back

A format is faithful when reading what it has written gives the value again and leaves alone
whatever comes after it. Each way of making a format of others keeps it faithful, so the formats of
texts and of subjects are.

A length is written as a word of 64 bits. So this is about values whose lengths fit into one, as
those of all values that fit into a memory do.
-/

namespace GenerationalCache

namespace Text.Utf8

/-! ## Texts as bytes -/

theorem toNat_ofNat {n : Nat} (h : n < 256) : (UInt8.ofNat n).toNat = n :=
  UInt8.toNat_ofNat_of_lt' h

section

variable {start : Nat} {a b c d : UInt8} {rest : List UInt8}

theorem decodeFrom_one (ha : sequenceLength? a = some 1) :
    decodeFrom start (a :: rest) = (decodeFrom (start + 1) rest).map (Char.ofNat a.toNat :: ·) := by
  rw [decodeFrom.eq_def]
  simp only [ha]

theorem decodeFrom_two (ha : sequenceLength? a = some 2) (hb : isSecond a b = true) :
    decodeFrom start (a :: b :: rest) =
      (decodeFrom (start + 2) rest).map
        (Char.ofNat ((a.toNat - 0xC0) * 0x40 + (b.toNat - 0x80)) :: ·) := by
  rw [decodeFrom.eq_def]
  simp only [ha, hb, if_true]

theorem decodeFrom_three (ha : sequenceLength? a = some 3) (hb : isSecond a b = true)
    (hc : isContinuation c = true) :
    decodeFrom start (a :: b :: c :: rest) =
      (decodeFrom (start + 3) rest).map
        (Char.ofNat ((a.toNat - 0xE0) * 0x1000 + (b.toNat - 0x80) * 0x40 +
          (c.toNat - 0x80)) :: ·) := by
  rw [decodeFrom.eq_def]
  simp only [ha, hb, hc, if_true]

theorem decodeFrom_four (ha : sequenceLength? a = some 4) (hb : isSecond a b = true)
    (hc : isContinuation c = true) (hd : isContinuation d = true) :
    decodeFrom start (a :: b :: c :: d :: rest) =
      (decodeFrom (start + 4) rest).map
        (Char.ofNat ((a.toNat - 0xF0) * 0x40000 + (b.toNat - 0x80) * 0x1000 +
          (c.toNat - 0x80) * 0x40 + (d.toNat - 0x80)) :: ·) := by
  rw [decodeFrom.eq_def]
  simp only [ha, hb, hc, hd, if_true]

end

theorem isContinuation_ofNat {n : Nat} (h : n < 0x40) :
    isContinuation (UInt8.ofNat (0x80 + n)) = true := by
  have hn := toNat_ofNat (n := 0x80 + n) (by omega)
  simp only [isContinuation, hn, Bool.and_eq_true, decide_eq_true_eq]
  omega

/-- What may come second is narrower after four of the first bytes. -/
theorem isSecond_of {lead b : UInt8} (hb : 0x80 ≤ b.toNat ∧ b.toNat ≤ 0xBF)
    (hE0 : lead.toNat = 0xE0 → 0xA0 ≤ b.toNat) (hED : lead.toNat = 0xED → b.toNat ≤ 0x9F)
    (hF0 : lead.toNat = 0xF0 → 0x90 ≤ b.toNat) (hF4 : lead.toNat = 0xF4 → b.toNat ≤ 0x8F) :
    isSecond lead b = true := by
  simp only [isSecond, Bool.and_eq_true, decide_eq_true_eq]
  constructor
  · split_ifs with h h
    · exact hE0 h
    · exact hF0 h
    · exact hb.1
  · split_ifs with h h
    · exact hED h
    · exact hF4 h
    · exact hb.2

/-- A character that has been written is read back, and then what comes after it. A surrogate is no
character, so the second byte after `0xED` is never too great. -/
theorem decodeFrom_encodeCodePoint (start : Nat) (c : Char) (rest : List UInt8) :
    decodeFrom start (encodeCodePoint c.toNat ++ rest) =
      (decodeFrom (start + (encodeCodePoint c.toNat).length) rest).map (c :: ·) := by
  have hchar : ∀ n, n = c.toNat → Char.ofNat n = c := fun n h => h ▸ Char.ofNat_toNat c
  have hvalid : c.toNat < 0xD800 ∨ 0xDFFF < c.toNat ∧ c.toNat < 0x110000 := c.valid
  -- one to four bytes: the first says how many there are, and together they make up the number
  unfold encodeCodePoint
  split_ifs with h₁ h₂ h₃
  · have ha := toNat_ofNat (n := c.toNat) (by omega)
    rw [List.cons_append, List.nil_append, decodeFrom_one, hchar _ ha]
    · rfl
    · simp only [sequenceLength?, ha, if_pos h₁]
  · have ha := toNat_ofNat (n := 0xC0 + c.toNat / 0x40) (by omega)
    have hb := toNat_ofNat (n := 0x80 + c.toNat % 0x40) (by omega)
    simp only [List.cons_append, List.nil_append]
    rw [decodeFrom_two, hchar]
    · rfl
    · rw [ha, hb]
      omega
    · simp only [sequenceLength?, ha]
      rw [if_neg (by omega), if_pos (by simp; omega)]
    · refine isSecond_of ?_ ?_ ?_ ?_ ?_ <;> rw [hb] <;> omega
  · have ha := toNat_ofNat (n := 0xE0 + c.toNat / 0x1000) (by omega)
    have hb := toNat_ofNat (n := 0x80 + c.toNat / 0x40 % 0x40) (by omega)
    have hc := toNat_ofNat (n := 0x80 + c.toNat % 0x40) (by omega)
    simp only [List.cons_append, List.nil_append]
    rw [decodeFrom_three, hchar]
    · rfl
    · rw [ha, hb, hc]
      omega
    · simp only [sequenceLength?, ha]
      rw [if_neg (by omega), if_neg (by simp; omega), if_pos (by simp; omega)]
    · refine isSecond_of ?_ ?_ ?_ ?_ ?_ <;> rw [hb] <;> omega
    · exact isContinuation_ofNat (Nat.mod_lt _ (by decide))
  · have ha := toNat_ofNat (n := 0xF0 + c.toNat / 0x40000) (by omega)
    have hb := toNat_ofNat (n := 0x80 + c.toNat / 0x1000 % 0x40) (by omega)
    have hc := toNat_ofNat (n := 0x80 + c.toNat / 0x40 % 0x40) (by omega)
    have hd := toNat_ofNat (n := 0x80 + c.toNat % 0x40) (by omega)
    simp only [List.cons_append, List.nil_append]
    rw [decodeFrom_four, hchar]
    · rfl
    · rw [ha, hb, hc, hd]
      omega
    · simp only [sequenceLength?, ha]
      rw [if_neg (by omega), if_neg (by simp; omega), if_neg (by simp; omega),
        if_pos (by simp; omega)]
    · refine isSecond_of ?_ ?_ ?_ ?_ ?_ <;> rw [hb] <;> omega
    · exact isContinuation_ofNat (Nat.mod_lt _ (by decide))
    · exact isContinuation_ofNat (Nat.mod_lt _ (by decide))

theorem decodeFrom_encodeChars (start : Nat) (cs : List Char) :
    decodeFrom start (encodeChars cs) = .ok cs := by
  induction cs generalizing start with
  | nil => rfl
  | cons c cs ih =>
      rw [encodeChars, List.flatMap_cons, decodeFrom_encodeCodePoint]
      exact congrArg (Except.map (c :: ·)) (ih _)

/-- **A text that has been written is read back.** -/
theorem decode_encode (s : String) : decode (encode s) = .ok s := by
  rw [decode, encode, decodeFrom_encodeChars]
  exact congrArg Except.ok String.ofList_toList

end Text.Utf8

/-! ## Sorted sets and maps -/

/-- What is greater than everything in a list comes last. -/
theorem insertAscending_of_lt {α : Type} {key : α → String} {x : α} {ys : List α}
    (h : ∀ y ∈ ys, compare (key y) (key x) = .lt) : insertAscending key x ys = ys ++ [x] := by
  induction ys with
  | nil => rfl
  | cons y ys ih =>
      obtain ⟨hy, hys⟩ := List.forall_mem_cons.mp h
      have hgt : compare (key x) (key y) = .gt := Std.OrientedCmp.gt_iff_lt.mpr hy
      rw [insertAscending, hgt]
      exact congrArg (y :: ·) (ih hys)

/-- Putting an ascending list together again changes nothing. -/
theorem foldl_insertAscending {α : Type} {key : α → String} (xs ys : List α)
    (h : (ys ++ xs).Pairwise fun a b => compare (key a) (key b) = .lt) :
    xs.foldl (fun l x => insertAscending key x l) ys = ys ++ xs := by
  induction xs generalizing ys with
  | nil => exact (List.append_nil ys).symm
  | cons x xs ih =>
      have hlt : ∀ y ∈ ys, compare (key y) (key x) = .lt := fun y hy =>
        (List.pairwise_append.mp h).2.2 y hy x List.mem_cons_self
      rw [List.foldl_cons, insertAscending_of_lt hlt, ih, List.append_assoc]
      · rfl
      · rwa [List.append_assoc]

theorem TextSet.ofList_items (s : TextSet) : TextSet.ofList s.items = s := by
  -- the items of the sets on the way are the lists on the way
  have hfold : ∀ (xs : List String) (t : TextSet),
      (xs.foldl insert t).items = xs.foldl (fun l x => insertAscending id x l) t.items := by
    intro xs
    induction xs with
    | nil => exact fun _ => rfl
    | cons x xs ih => exact fun t => ih (t.insert x)
  have hitems : (TextSet.ofList s.items).items = s.items :=
    (hfold s.items .empty).trans (foldl_insertAscending s.items [] s.ascending)
  obtain ⟨items, ascending⟩ := s
  exact (TextSet.mk.injEq ..).mpr hitems

theorem TextMap.ofList_pairs (m : TextMap) : TextMap.ofList m.pairs = m := by
  have hfold : ∀ (ps : List (String × String)) (t : TextMap),
      (ps.foldl (fun m p => m.insert p.1 p.2) t).pairs =
        ps.foldl (fun l p => insertAscending Prod.fst p l) t.pairs := by
    intro ps
    induction ps with
    | nil => exact fun _ => rfl
    | cons p ps ih => exact fun t => ih (t.insert p.1 p.2)
  have hpairs : (TextMap.ofList m.pairs).pairs = m.pairs :=
    (hfold m.pairs .empty).trans (foldl_insertAscending m.pairs [] m.ascending)
  obtain ⟨pairs, ascending⟩ := m
  exact (TextMap.mk.injEq ..).mpr hpairs

/-! ## Formats -/

namespace Wire

/-- The digits of a number to the base 256 make up the number. -/
theorem digits (n : Nat) (h : n < UInt64.size) :
    n / 0x1 % 256 + 256 * (n / 0x100 % 256 + 256 * (n / 0x10000 % 256 +
      256 * (n / 0x1000000 % 256 + 256 * (n / 0x100000000 % 256 +
        256 * (n / 0x10000000000 % 256 + 256 * (n / 0x1000000000000 % 256 +
          256 * (n / 0x100000000000000 % 256))))))) = n := by
  have : n < 0x10000000000000000 := h
  omega

/-- A word that has been written is read back. -/
theorem word_encodeWord (w : UInt64) (rest : List UInt8) :
    Decoder.word (encodeWord w ++ rest) = .ok (w, rest) := by
  have hbyte : ∀ n, (UInt8.ofNat n).toNat = n % 256 := fun n => UInt8.toNat_ofNat'
  simp only [encodeWord, List.range_succ_eq_map, List.range_zero, List.map_cons, List.map_nil,
    List.cons_append, List.nil_append, Decoder.word, hbyte]
  refine congrArg (fun n => Except.ok (n, rest)) ?_
  exact (congrArg UInt64.ofNat (digits w.toNat w.toNat_lt)).trans UInt64.ofNat_toNat

theorem length_encodeWord (w : UInt64) : (encodeWord w).length = 8 := by simp [encodeWord]

/-- The length of a text fits into a word. -/
def TextFits (s : String) : Prop := (Text.Utf8.encode s).length < UInt64.size

/-- The length of a list fits into a word, and so do its elements. -/
def ListFits {α : Type} (fits : α → Prop) (xs : List α) : Prop :=
  xs.length < UInt64.size ∧ ∀ x ∈ xs, fits x

/-- The names and the values of credentials fit. -/
def CredentialFits (p : String × String) : Prop := TextFits p.1 ∧ TextFits p.2

/-- Whatever has a length in a subject fits. -/
structure SubjectFits (s : Subject) : Prop where
  /-- The names, and how many there are. -/
  principals : ListFits TextFits s.principals.items
  /-- The credentials of one map, and how many there are. -/
  publicCredentials : ListFits CredentialFits s.publicCredentials.pairs
  /-- Those of the other map. -/
  privateCredentials : ListFits CredentialFits s.privateCredentials.pairs

namespace Format

variable {α β : Type} {f : Format α} {g : Format β} {fits : α → Prop} {fits' : β → Prop}

/-- What is written of a value that fits is read back, and what comes after it is left alone. -/
def Faithful (f : Format α) (fits : α → Prop) : Prop :=
  ∀ a, fits a → ∀ rest, f.decode (f.encode a ++ rest) = .ok (a, rest)

theorem Faithful.pair (hf : f.Faithful fits) (hg : g.Faithful fits') :
    (f.pair g).Faithful fun p => fits p.1 ∧ fits' p.2 := by
  intro p hp rest
  simp only [Format.pair, Decoder.pair, List.append_assoc, hf p.1 hp.1, hg p.2 hp.2]
  rfl

theorem Faithful.via {wrap : α → β} {unwrap : β → α} (hf : f.Faithful fits)
    (h : ∀ b, wrap (unwrap b) = b) : (f.via wrap unwrap).Faithful fun b => fits (unwrap b) := by
  intro b hb rest
  simp only [Format.via, Decoder.map, hf (unwrap b) hb, Except.map, h b]

/-- The elements of a list are read back one after the other. -/
theorem Faithful.times (hf : f.Faithful fits) (xs : List α) (h : ∀ x ∈ xs, fits x)
    (rest : List UInt8) :
    f.decode.times xs.length (xs.flatMap f.encode ++ rest) = .ok (xs, rest) := by
  induction xs with
  | nil => rfl
  | cons x xs ih =>
      obtain ⟨hx, hxs⟩ := List.forall_mem_cons.mp h
      simp only [List.flatMap_cons, List.length_cons, Decoder.times, List.append_assoc, hf x hx,
        ih hxs, Except.map]

theorem Faithful.list (hf : f.Faithful fits) : f.list.Faithful (ListFits fits) := by
  intro xs hxs rest
  simp only [Format.list, encodeSequence, Decoder.sequence, List.append_assoc, word_encodeWord,
    UInt64.toNat_ofNat_of_lt' hxs.1, hf.times xs hxs.2]

theorem faithful_flag : flag.Faithful fun _ => True := by
  intro b _ rest
  cases b <;> rfl

theorem faithful_text : text.Faithful TextFits := by
  intro s hs rest
  simp only [text, encodeText, Decoder.text, Decoder.textOf, List.append_assoc, word_encodeWord,
    UInt64.toNat_ofNat_of_lt' hs]
  rw [if_neg (by simp), List.take_left, Text.Utf8.decode_encode, List.drop_left]

theorem faithful_textSet : textSet.Faithful fun s => ListFits TextFits s.items :=
  faithful_text.list.via TextSet.ofList_items

theorem faithful_textMap : textMap.Faithful fun m => ListFits CredentialFits m.pairs :=
  (faithful_text.pair faithful_text).list.via TextMap.ofList_pairs

/-- **Subjects are read back.** -/
theorem faithful_subject : subject.Faithful SubjectFits := by
  have h : subject.Faithful _ := (faithful_textSet.pair (faithful_textMap.pair
    (faithful_textMap.pair faithful_flag))).via fun _ => rfl
  exact fun s hs => h s ⟨hs.principals, hs.publicCredentials, hs.privateCredentials, trivial⟩

end Format

end Wire

namespace Serializer

variable {V : Type}

/-- A value that it writes, and that it reads back from the bytes. -/
def Keeps (s : Serializer V) (x : V) : Prop :=
  ∃ bytes, s.serialize x = .ok bytes ∧ s.deserialize bytes = .ok x

/-- **The serializer of a faithful format keeps every value that fits.** -/
theorem keeps_ofFormat {f : Wire.Format V} {fits : V → Prop} (hf : f.Faithful fits) {x : V}
    (hx : fits x) : (ofFormat f).Keeps x := by
  have h := hf x hx []
  rw [List.append_nil] at h
  refine ⟨f.encode x, rfl, ?_⟩
  simp only [ofFormat, Wire.Decoder.run, h, Except.map]

end Serializer

end GenerationalCache
