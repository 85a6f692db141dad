import GenerationalCache.Proofs.RoundTrip

/-!
# Texts and their bytes

Two facts about the bytes of texts. Whatever reads as a text is what is written for it, because every
sequence that is accepted belongs to one code point and is the shortest one for it. And texts compare
as their bytes do: of two different characters the one with the greater code point has the greater
byte where their bytes first differ, and neither's bytes begin the other's.
-/

namespace GenerationalCache.Text.Utf8

/-! ## Bytes that read as a text are its bytes -/

theorem toNat_charOfNat {n : Nat} (h : n < 0xD800 ∨ 0xDFFF < n ∧ n < 0x110000) :
    (Char.ofNat n).toNat = n := by
  have hvalid : n.isValidChar := h
  rw [Char.ofNat, dif_pos hvalid]
  rfl

theorem of_sequenceLength? {a : UInt8} {n : Nat} (h : sequenceLength? a = some n) :
    n = 1 ∧ a.toNat < 0x80 ∨ n = 2 ∧ 0xC2 ≤ a.toNat ∧ a.toNat ≤ 0xDF ∨
      n = 3 ∧ 0xE0 ≤ a.toNat ∧ a.toNat ≤ 0xEF ∨ n = 4 ∧ 0xF0 ≤ a.toNat ∧ a.toNat ≤ 0xF4 := by
  simp only [sequenceLength?, Bool.and_eq_true, decide_eq_true_eq] at h
  split_ifs at h <;> simp at h <;> omega

/-- What may come second is narrower after four of the first bytes. -/
theorem of_isSecond {lead b : UInt8} (h : isSecond lead b = true) :
    0x80 ≤ b.toNat ∧ b.toNat ≤ 0xBF ∧ (lead.toNat = 0xE0 → 0xA0 ≤ b.toNat) ∧
      (lead.toNat = 0xED → b.toNat ≤ 0x9F) ∧ (lead.toNat = 0xF0 → 0x90 ≤ b.toNat) ∧
      (lead.toNat = 0xF4 → b.toNat ≤ 0x8F) := by
  simp only [isSecond, Bool.and_eq_true, decide_eq_true_eq] at h
  obtain ⟨hlow, hhigh⟩ := h
  split_ifs at hlow hhigh <;> omega

theorem of_isContinuation {b : UInt8} (h : isContinuation b = true) :
    0x80 ≤ b.toNat ∧ b.toNat ≤ 0xBF := by
  simpa only [isContinuation, Bool.and_eq_true, decide_eq_true_eq] using h

theorem ofNat_eq {n : Nat} {a : UInt8} (h : n = a.toNat) : UInt8.ofNat n = a :=
  h ▸ UInt8.ofNat_toNat

section

variable {a b c d : UInt8}

theorem encodeCodePoint_one (ha : sequenceLength? a = some 1) :
    encodeCodePoint (Char.ofNat a.toNat).toNat = [a] := by
  have hlead := of_sequenceLength? ha
  rw [toNat_charOfNat (by omega), encodeCodePoint, if_pos (by omega), ofNat_eq rfl]

theorem encodeCodePoint_two (ha : sequenceLength? a = some 2) (hb : isSecond a b = true) :
    encodeCodePoint (Char.ofNat ((a.toNat - 0xC0) * 0x40 + (b.toNat - 0x80))).toNat = [a, b] := by
  have hlead := of_sequenceLength? ha
  have hsecond := of_isSecond hb
  rw [toNat_charOfNat (by omega), encodeCodePoint, if_neg (by omega), if_pos (by omega)]
  rw [ofNat_eq (a := a) (by omega), ofNat_eq (a := b) (by omega)]

theorem encodeCodePoint_three (ha : sequenceLength? a = some 3) (hb : isSecond a b = true)
    (hc : isContinuation c = true) :
    encodeCodePoint (Char.ofNat ((a.toNat - 0xE0) * 0x1000 + (b.toNat - 0x80) * 0x40 +
      (c.toNat - 0x80))).toNat = [a, b, c] := by
  have hlead := of_sequenceLength? ha
  have hsecond := of_isSecond hb
  have hthird := of_isContinuation hc
  rw [toNat_charOfNat (by omega), encodeCodePoint, if_neg (by omega), if_neg (by omega),
    if_pos (by omega)]
  rw [ofNat_eq (a := a) (by omega), ofNat_eq (a := b) (by omega), ofNat_eq (a := c) (by omega)]

theorem encodeCodePoint_four (ha : sequenceLength? a = some 4) (hb : isSecond a b = true)
    (hc : isContinuation c = true) (hd : isContinuation d = true) :
    encodeCodePoint (Char.ofNat ((a.toNat - 0xF0) * 0x40000 + (b.toNat - 0x80) * 0x1000 +
      (c.toNat - 0x80) * 0x40 + (d.toNat - 0x80))).toNat = [a, b, c, d] := by
  have hlead := of_sequenceLength? ha
  have hsecond := of_isSecond hb
  have hthird := of_isContinuation hc
  have hfourth := of_isContinuation hd
  rw [toNat_charOfNat (by omega), encodeCodePoint, if_neg (by omega), if_neg (by omega),
    if_neg (by omega)]
  rw [ofNat_eq (a := a) (by omega), ofNat_eq (a := b) (by omega), ofNat_eq (a := c) (by omega),
    ofNat_eq (a := d) (by omega)]

end

theorem encodeChars_cons (c : Char) (cs : List Char) :
    encodeChars (c :: cs) = encodeCodePoint c.toNat ++ encodeChars cs :=
  List.flatMap_cons

/-- A sequence that belongs to a character, and one that is what is written for others. -/
theorem encodeChars_of_map {c : Char} {bytes rest : List UInt8} {r : Except Failure (List Char)}
    {cs : List Char} (hc : encodeCodePoint c.toNat = bytes)
    (hrest : ∀ {cs}, r = .ok cs → encodeChars cs = rest) (h : r.map (c :: ·) = .ok cs) :
    encodeChars cs = bytes ++ rest := by
  cases r with
  | error => cases h
  | ok cs' =>
      obtain rfl : c :: cs' = cs := Except.ok.inj h
      rw [encodeChars_cons, hc, hrest rfl]

/-- Sequences of characters are read from nothing but what is written for them. -/
theorem encodeChars_of_decodeFrom {start : Nat} {bytes : List UInt8} {cs : List Char}
    (h : decodeFrom start bytes = .ok cs) : encodeChars cs = bytes := by
  fun_induction decodeFrom start bytes generalizing cs with
  | case1 => cases h; rfl
  | case2 start a rest ha ih => exact encodeChars_of_map (encodeCodePoint_one ha) ih h
  | case4 start a ha b rest hb ih => exact encodeChars_of_map (encodeCodePoint_two ha hb) ih h
  | case8 start a ha b hb c rest hc ih =>
      exact encodeChars_of_map (encodeCodePoint_three ha hb hc) ih h
  | case14 start a n h₁ h₂ h₃ ha b hb c hc d rest hd ih =>
      -- a sequence is never longer than four bytes
      obtain ⟨h, -⟩ | ⟨h, -⟩ | ⟨h, -⟩ | ⟨rfl, -⟩ := of_sequenceLength? ha
      · exact (h₁ h).elim
      · exact (h₂ h).elim
      · exact (h₃ h).elim
      exact encodeChars_of_map (encodeCodePoint_four ha hb hc hd) ih h
  | _ => cases h

/-- **Bytes that read as a text are what is written for it.** -/
theorem encode_of_decode {bytes : List UInt8} {s : String} (h : decode bytes = .ok s) :
    encode s = bytes := by
  unfold decode at h
  cases hcs : decodeFrom 0 bytes with
  | error failure => rw [hcs] at h; cases h
  | ok cs =>
      rw [hcs] at h
      obtain rfl : String.ofList cs = s := Except.ok.inj h
      rw [encode, String.toList_ofList, encodeChars_of_decodeFrom hcs]

/-! ## Texts compare as their bytes do -/

/-- What comes after two lists of one length does not matter once they differ. -/
theorem append_lt_append {p q : List UInt8} (hlength : p.length = q.length) (h : p < q)
    (u v : List UInt8) : p ++ u < q ++ v := by
  induction p generalizing q with
  | nil =>
      obtain rfl : q = [] := List.length_eq_zero_iff.mp hlength.symm
      exact absurd h (List.lt_irrefl [])
  | cons x p ih =>
      cases q with
      | nil => cases hlength
      | cons y q =>
          rw [List.cons_append, List.cons_append, List.cons_lt_cons_iff]
          rcases List.cons_lt_cons_iff.mp h with hlt | ⟨rfl, hlt⟩
          · exact .inl hlt
          · exact .inr ⟨rfl, ih (Nat.succ.inj hlength) hlt⟩

/-- A greater code point has greater bytes, whatever comes after either. -/
theorem encodeCodePoint_lt {m n : Nat} (hlt : m < n) (hn : n < 0x110000) (u v : List UInt8) :
    encodeCodePoint m ++ u < encodeCodePoint n ++ v := by
  have hbyte : ∀ {i j : Nat}, i < 256 → j < 256 → (UInt8.ofNat i < UInt8.ofNat j ↔ i < j) := by
    intro i j hi hj
    rw [UInt8.lt_iff_toNat_lt, toNat_ofNat hi, toNat_ofNat hj]
  have hsame : ∀ {i j : Nat}, i < 256 → j < 256 → (UInt8.ofNat i = UInt8.ofNat j ↔ i = j) := by
    intro i j hi hj
    rw [← UInt8.toNat_inj, toNat_ofNat hi, toNat_ofNat hj]
  by_cases hlength : (encodeCodePoint m).length = (encodeCodePoint n).length
  · -- the bytes are the digits of the two numbers
    refine append_lt_append hlength ?_ u v
    unfold encodeCodePoint at hlength ⊢
    split_ifs at hlength ⊢
    any_goals (simp only [List.length_cons, List.length_nil] at hlength; omega)
    all_goals
      simp (disch := omega) only [List.cons_lt_cons_iff, hbyte, hsame, List.lt_irrefl, and_false,
        or_false]
      omega
  · -- the first byte tells how many there are, and more of them are for greater numbers
    unfold encodeCodePoint at hlength ⊢
    split_ifs at hlength ⊢
    any_goals exact absurd rfl hlength
    all_goals
      refine List.cons_lt_cons_iff.mpr (.inl ((hbyte ?_ ?_).mpr ?_)) <;> omega

theorem encodeCodePoint_ne_nil (n : Nat) : encodeCodePoint n ≠ [] := by
  unfold encodeCodePoint
  split_ifs <;> exact List.cons_ne_nil _ _

/-- The bytes of sequences of characters come one after the other as these do. -/
theorem encodeChars_lt {cs ds : List Char} (h : cs < ds) : encodeChars cs < encodeChars ds := by
  induction cs generalizing ds with
  | nil =>
      cases ds with
      | nil => exact absurd h (List.lt_irrefl [])
      | cons d ds =>
          rw [encodeChars_cons]
          obtain ⟨b, bs, hb⟩ := List.exists_cons_of_ne_nil (encodeCodePoint_ne_nil d.toNat)
          rw [hb]
          exact List.nil_lt_cons b _
  | cons c cs ih =>
      cases ds with
      | nil => exact absurd h (List.not_lt_nil _)
      | cons d ds =>
          rw [encodeChars_cons, encodeChars_cons]
          rcases List.cons_lt_cons_iff.mp h with hlt | ⟨rfl, hlt⟩
          · have hvalid : d.toNat < 0xD800 ∨ 0xDFFF < d.toNat ∧ d.toNat < 0x110000 := d.valid
            have hd : d.toNat < 0x110000 := by omega
            exact encodeCodePoint_lt hlt hd _ _
          · exact List.append_left_lt (ih hlt)

/-- **Texts compare as their bytes do.** -/
theorem compare_eq_lt_iff {s t : String} : compare s t = .lt ↔ encode s < encode t := by
  have hcompare : ∀ {s t : String}, compare s t = .lt ↔ s < t := compareOfLessAndEq_eq_lt
  have hmono : ∀ {s t : String}, s < t → encode s < encode t := fun h =>
    encodeChars_lt (String.lt_iff.mp h)
  rw [hcompare]
  refine ⟨hmono, fun h => ?_⟩
  -- otherwise the texts are the same or the other way round, and then so are their bytes
  by_cases hlt : s < t
  · exact hlt
  · by_cases hgt : t < s
    · exact absurd h (List.lt_asymm (hmono hgt))
    · obtain rfl : s = t := String.le_antisymm hgt hlt
      exact absurd h (List.lt_irrefl _)

end GenerationalCache.Text.Utf8
