import GenerationalCache.Proofs.TextBytes

/-!
# What reading accepts, and how long it takes

A format is exact when it reads nothing but what it writes: the bytes that were taken are those of
the value that was made of them. Numbers, flags and texts have exact formats, and so have pairs and
lists of what has one. Sets and maps have not, since they are put together anew.

Reading always ends, and soon. A list may announce any number of elements, but each of them takes
bytes, and the first that does not find them is the last that is looked for. To say so, reading is
done once more with its steps counted.
-/

namespace GenerationalCache.Wire

/-! ## Exact formats -/

/-- The digits that a number to the base 256 is made of. -/
theorem encodeWord_ofNat (a b c d e f g h : UInt8) :
    encodeWord (.ofNat (a.toNat + 256 * (b.toNat + 256 * (c.toNat + 256 * (d.toNat +
      256 * (e.toNat + 256 * (f.toNat + 256 * (g.toNat + 256 * h.toNat)))))))) =
        [a, b, c, d, e, f, g, h] := by
  have ha := a.toNat_lt
  have hb := b.toNat_lt
  have hc := c.toNat_lt
  have hd := d.toNat_lt
  have he := e.toNat_lt
  have hf := f.toNat_lt
  have hg := g.toNat_lt
  have hh := h.toNat_lt
  have hbyte : ∀ {n : Nat} {x : UInt8}, n % 256 = x.toNat → UInt8.ofNat n = x := by
    intro n x hx
    rw [← UInt8.toNat_inj, UInt8.toNat_ofNat', hx]
  have hfits : a.toNat + 256 * (b.toNat + 256 * (c.toNat + 256 * (d.toNat +
      256 * (e.toNat + 256 * (f.toNat + 256 * (g.toNat + 256 * h.toNat)))))) < UInt64.size := by
    simp only [UInt64.size]
    omega
  simp only [encodeWord, List.range_succ_eq_map, List.range_zero, List.map_cons, List.map_nil,
    UInt64.toNat_ofNat_of_lt' hfits]
  simp only [List.cons.injEq, and_true]
  refine ⟨hbyte ?_, hbyte ?_, hbyte ?_, hbyte ?_, hbyte ?_, hbyte ?_, hbyte ?_, hbyte ?_⟩
  all_goals
    simp only [Nat.pow_eq, Nat.succ_eq_add_one, Nat.reduceAdd, Nat.reduceMul, Nat.reducePow]
    omega

theorem eq_of_word {bytes rest : List UInt8} {w : UInt64}
    (h : Decoder.word bytes = .ok (w, rest)) : bytes = encodeWord w ++ rest := by
  unfold Decoder.word at h
  split at h
  · obtain ⟨rfl, rfl⟩ := Prod.mk.inj (Except.ok.inj h)
    rw [encodeWord_ofNat]
    rfl
  · cases h

namespace Format

variable {α β : Type} {f : Format α} {g : Format β} {fits : α → Prop} {fits' : β → Prop}

/-- What is read is what is written for the value that was read, which has lengths that fit. -/
def Exact (f : Format α) (fits : α → Prop) : Prop :=
  ∀ ⦃bytes a rest⦄, f.decode bytes = .ok (a, rest) → bytes = f.encode a ++ rest ∧ fits a

theorem Exact.pair (hf : f.Exact fits) (hg : g.Exact fits') :
    (f.pair g).Exact fun p => fits p.1 ∧ fits' p.2 := by
  intro bytes p rest h
  simp only [Format.pair, Decoder.pair] at h ⊢
  cases hfirst : f.decode bytes with
  | error failure => rw [hfirst] at h; cases h
  | ok r =>
      obtain ⟨a, middle⟩ := r
      rw [hfirst] at h
      dsimp only at h
      cases hsecond : g.decode middle with
      | error failure => rw [hsecond] at h; cases h
      | ok r =>
          obtain ⟨b, last⟩ := r
          rw [hsecond] at h
          obtain ⟨rfl, rfl⟩ := Prod.mk.inj (Except.ok.inj h)
          obtain ⟨rfl, ha⟩ := hf hfirst
          obtain ⟨rfl, hb⟩ := hg hsecond
          exact ⟨(List.append_assoc ..).symm, ha, hb⟩

/-- Values that stand for others one to one are read as exactly as those. -/
theorem Exact.via {wrap : α → β} {unwrap : β → α} (hf : f.Exact fits)
    (h : ∀ a, unwrap (wrap a) = a) : (f.via wrap unwrap).Exact fun b => fits (unwrap b) := by
  intro bytes b rest hb
  simp only [Format.via, Decoder.map] at hb ⊢
  cases hread : f.decode bytes with
  | error failure => rw [hread] at hb; cases hb
  | ok r =>
      rw [hread] at hb
      obtain ⟨rfl, rfl⟩ := Prod.mk.inj (Except.ok.inj hb)
      rw [h]
      exact hf hread

theorem Exact.times (hf : f.Exact fits) {n : Nat} {bytes rest : List UInt8} {xs : List α}
    (h : f.decode.times n bytes = .ok (xs, rest)) :
    bytes = xs.flatMap f.encode ++ rest ∧ xs.length = n ∧ ∀ x ∈ xs, fits x := by
  induction n generalizing bytes xs with
  | zero =>
      obtain ⟨rfl, rfl⟩ := Prod.mk.inj (Except.ok.inj h)
      exact ⟨rfl, rfl, List.forall_mem_nil _⟩
  | succ n ih =>
      rw [Decoder.times] at h
      cases hfirst : f.decode bytes with
      | error failure => rw [hfirst] at h; cases h
      | ok r =>
          obtain ⟨a, middle⟩ := r
          rw [hfirst] at h
          dsimp only at h
          cases hrest : f.decode.times n middle with
          | error failure => rw [hrest] at h; cases h
          | ok r =>
              obtain ⟨as, last⟩ := r
              rw [hrest] at h
              obtain ⟨rfl, rfl⟩ := Prod.mk.inj (Except.ok.inj h)
              obtain ⟨rfl, ha⟩ := hf hfirst
              obtain ⟨rfl, rfl, has⟩ := ih hrest
              exact ⟨by rw [List.flatMap_cons, List.append_assoc], rfl,
                List.forall_mem_cons.mpr ⟨ha, has⟩⟩

theorem Exact.list (hf : f.Exact fits) : f.list.Exact (ListFits fits) := by
  intro bytes xs rest h
  simp only [Format.list, Decoder.sequence] at h
  cases hword : Decoder.word bytes with
  | error failure => rw [hword] at h; cases h
  | ok r =>
      obtain ⟨count, middle⟩ := r
      rw [hword] at h
      obtain ⟨rfl, hlength, hxs⟩ := hf.times h
      obtain rfl := eq_of_word hword
      refine ⟨?_, hlength ▸ count.toNat_lt, hxs⟩
      simp only [Format.list, encodeSequence, hlength, UInt64.ofNat_toNat, List.append_assoc]

theorem exact_text : text.Exact TextFits := by
  intro bytes s rest h
  simp only [text, Decoder.text] at h
  cases hword : Decoder.word bytes with
  | error failure => rw [hword] at h; cases h
  | ok r =>
      obtain ⟨length, middle⟩ := r
      rw [hword] at h
      dsimp only [Decoder.textOf] at h
      split at h
      · cases h
      · next hle =>
        split at h
        · cases h
        · next s' htext =>
          obtain ⟨rfl, rfl⟩ := Prod.mk.inj (Except.ok.inj h)
          have hbytes := Text.Utf8.encode_of_decode htext
          have hlength : (Text.Utf8.encode s').length = length.toNat := by
            rw [hbytes, List.length_take]
            omega
          obtain rfl := eq_of_word hword
          refine ⟨?_, ?_⟩
          · have hcount : UInt64.ofNat (Text.Utf8.encode s').length = length := by
              rw [hlength, UInt64.ofNat_toNat]
            simp only [text, encodeText, hcount]
            rw [hbytes, List.append_assoc, List.take_append_drop]
          · rw [TextFits, hlength]
            exact length.toNat_lt

theorem exact_flag : flag.Exact fun _ => True := by
  intro bytes b rest h
  simp only [flag] at h ⊢
  match bytes with
  | [] => cases h
  | x :: xs =>
      rw [Decoder.flag] at h
      split_ifs at h with hzero hone
      · obtain ⟨rfl, rfl⟩ := Prod.mk.inj (Except.ok.inj h)
        exact ⟨by rw [hzero]; rfl, trivial⟩
      · obtain ⟨rfl, rfl⟩ := Prod.mk.inj (Except.ok.inj h)
        exact ⟨by rw [hone]; rfl, trivial⟩

end Format

/-! ## Counting the steps of reading -/

/-- Reads as a decoder does, and tells in how many steps. A step looks for a number, for a flag or
for the bytes of a text, or begins an element of a list. -/
abbrev Metered (α : Type) : Type := List UInt8 → Except Failure (α × List UInt8) × Nat

namespace Metered

variable {α β : Type}

/-- One step, whatever it comes to. -/
def once (d : Decoder α) : Metered α := fun bytes => (d bytes, 1)

/-- Turning a value into another is no step. -/
def map (f : α → β) (m : Metered α) : Metered β := fun bytes =>
  ((m bytes).1.map fun r => (f r.1, r.2), (m bytes).2)

/-- Two values take their steps together, and the second none if the first fails. -/
def pair (m : Metered α) (m' : Metered β) : Metered (α × β) := fun bytes =>
  match m bytes with
  | (.error failure, steps) => (.error failure, steps)
  | (.ok (a, rest), steps) => ((m' rest).1.map fun r => ((a, r.1), r.2), steps + (m' rest).2)

/-- One step for the length of a text, and one for its bytes. -/
def text : Metered String := fun bytes =>
  match Decoder.word bytes with
  | .error failure => (.error failure, 1)
  | .ok (length, rest) => (Decoder.textOf length.toNat rest, 2)

/-- Each element takes a step to begin, up to the first that fails. -/
def times (m : Metered α) : Nat → Metered (List α)
  | 0, bytes => (.ok ([], bytes), 0)
  | n + 1, bytes =>
    match m bytes with
    | (.error failure, steps) => (.error failure, steps + 1)
    | (.ok (a, rest), steps) =>
      ((times m n rest).1.map fun r => (a :: r.1, r.2), steps + 1 + (times m n rest).2)

/-- One step for the length of a list. -/
def sequence (m : Metered α) : Metered (List α) := fun bytes =>
  match Decoder.word bytes with
  | .error failure => (.error failure, 1)
  | .ok (count, rest) => ((times m count.toNat rest).1, 1 + (times m count.toNat rest).2)

/-- A value takes less than two steps for each of its bytes, and a failure is met in at most two for
each byte that there is, and one more. -/
def Few (bytes : List UInt8) : Except Failure (α × List UInt8) × Nat → Prop
  | (.ok (_, rest), steps) => steps + 2 * rest.length < 2 * bytes.length
  | (.error _, steps) => steps ≤ 2 * bytes.length + 1

/-- Reads as the decoder does, in few steps. -/
structure Measures (m : Metered α) (d : Decoder α) : Prop where
  /-- It reads what the decoder reads. -/
  reads : ∀ bytes, (m bytes).1 = d bytes
  /-- It takes few steps for that. -/
  few : ∀ bytes, Few bytes (m bytes)

/-- Either way there are no more than two for each byte, and one. -/
theorem Measures.steps_le {m : Metered α} {d : Decoder α} (h : m.Measures d)
    (bytes : List UInt8) : (m bytes).2 ≤ 2 * bytes.length + 1 := by
  have hfew := h.few bytes
  rcases hr : m bytes with ⟨_ | ⟨a, rest⟩, steps⟩ <;> rw [hr] at hfew <;>
    simp only [Few] at hfew ⊢ <;> omega

/-- A single step is one of few if it takes a byte when it succeeds. -/
theorem measures_once {d : Decoder α}
    (takes : ∀ bytes a rest, d bytes = .ok (a, rest) → rest.length < bytes.length) :
    (once d).Measures d where
  reads _ := rfl
  few bytes := by
    unfold once
    cases h : d bytes with
    | error failure => simp only [Few]; omega
    | ok r =>
        have := takes bytes r.1 r.2 h
        simp only [Few]
        omega

variable {m : Metered α} {d : Decoder α} {m' : Metered β} {d' : Decoder β}

theorem Measures.map (hm : m.Measures d) (f : α → β) : (m.map f).Measures (d.map f) where
  reads bytes := by simp only [Metered.map, Decoder.map, hm.reads]
  few bytes := by
    have hfew := hm.few bytes
    unfold Metered.map
    rcases hr : m bytes with ⟨_ | r, steps⟩ <;> rw [hr] at hfew <;> exact hfew

theorem Measures.pair (hm : m.Measures d) (hm' : m'.Measures d') :
    (m.pair m').Measures (d.pair d') where
  reads bytes := by
    have hread := hm.reads bytes
    unfold Metered.pair Decoder.pair
    rcases hr : m bytes with ⟨_ | ⟨a, rest⟩, steps⟩ <;> rw [hr] at hread <;> rw [← hread]
    simp only [hm'.reads]
  few bytes := by
    have hfew := hm.few bytes
    unfold Metered.pair
    rcases hr : m bytes with ⟨_ | ⟨a, rest⟩, steps⟩ <;> rw [hr] at hfew
    · exact hfew
    · have hrest := hm'.few rest
      rcases hr' : m' rest with ⟨_ | ⟨b, last⟩, steps'⟩ <;> rw [hr'] at hrest <;>
        simp only [Few, Except.map, hr'] at hfew hrest ⊢ <;> omega

/-- Elements take a step more each, and what the bytes say about their number is no matter. -/
theorem Measures.times (hm : m.Measures d) (n : Nat) (bytes : List UInt8) :
    (m.times n bytes).1 = d.times n bytes ∧
      match m.times n bytes with
      | (.ok (_, rest), steps) => steps + 2 * rest.length ≤ 2 * bytes.length
      | (.error _, steps) => steps ≤ 2 * bytes.length + 2 := by
  -- the number of elements does not show in the bound, since each of them takes bytes
  induction n generalizing bytes with
  | zero => exact ⟨rfl, Nat.le_of_eq (Nat.zero_add _)⟩
  | succ n ih =>
      have hread := hm.reads bytes
      have hfew := hm.few bytes
      unfold Metered.times Decoder.times
      rcases hr : m bytes with ⟨_ | ⟨a, rest⟩, steps⟩ <;> rw [hr] at hread hfew <;> rw [← hread]
      · exact ⟨rfl, Nat.succ_le_succ hfew⟩
      · obtain ⟨hreads, hrest⟩ := ih rest
        refine ⟨by simp only [hreads], ?_⟩
        rcases hr' : m.times n rest with ⟨_ | ⟨as, last⟩, steps'⟩ <;> rw [hr'] at hrest <;>
          simp only [Few, Except.map, hr'] at hfew hrest ⊢ <;> omega

theorem length_of_word {bytes rest : List UInt8} {w : UInt64}
    (h : Decoder.word bytes = .ok (w, rest)) : bytes.length = rest.length + 8 := by
  rw [eq_of_word h, List.length_append, length_encodeWord, Nat.add_comm]

theorem Measures.sequence (hm : m.Measures d) : m.sequence.Measures d.sequence where
  reads bytes := by
    unfold Metered.sequence Decoder.sequence
    cases Decoder.word bytes with
    | error failure => rfl
    | ok r => exact (hm.times r.1.toNat r.2).1
  few bytes := by
    unfold Metered.sequence
    cases hword : Decoder.word bytes with
    | error failure => simp only [Few]; omega
    | ok r =>
        have hlength := length_of_word hword
        have htimes := (hm.times r.1.toNat r.2).2
        rcases hr : m.times r.1.toNat r.2 with ⟨_ | ⟨as, last⟩, steps⟩ <;> rw [hr] at htimes <;>
          simp only [Few, hr] at htimes ⊢ <;> omega

theorem measures_flag : (once Decoder.flag).Measures Decoder.flag := by
  refine measures_once fun bytes b rest h => ?_
  rw [(Format.exact_flag h).1, List.length_append]
  cases b <;> simp [Format.flag]

theorem length_of_textOf {n : Nat} {bytes rest : List UInt8} {s : String}
    (h : Decoder.textOf n bytes = .ok (s, rest)) : rest.length ≤ bytes.length := by
  unfold Decoder.textOf at h
  split at h
  · cases h
  · split at h
    · cases h
    · obtain ⟨-, rfl⟩ := Prod.mk.inj (Except.ok.inj h)
      rw [List.length_drop]
      exact Nat.sub_le _ _

theorem measures_text : text.Measures Decoder.text where
  reads bytes := by
    unfold text Decoder.text
    cases Decoder.word bytes <;> rfl
  few bytes := by
    unfold text
    cases hword : Decoder.word bytes with
    | error failure => simp only [Few]; omega
    | ok r =>
        have hlength := length_of_word hword
        cases htext : Decoder.textOf r.1.toNat r.2 with
        | error failure => simp only [Few, htext]; omega
        | ok r' =>
            have hle := length_of_textOf htext
            simp only [Few, htext]
            omega

/-- Reads a subject. -/
def subject : Metered Subject :=
  (((text.sequence).map TextSet.ofList).pair
    (((text.pair text).sequence.map TextMap.ofList).pair
      (((text.pair text).sequence.map TextMap.ofList).pair (once Decoder.flag)))).map
    fun (principals, publicCredentials, privateCredentials, readOnly) =>
      { principals, publicCredentials, privateCredentials, readOnly }

/-- Reads a subject, and then the keys. -/
def authResult {K : Type} (keys : Metered K) : Metered (AuthResult K) :=
  (subject.pair keys.sequence).map fun (subject, lookupKeys) => { subject, lookupKeys }

theorem measures_subject : subject.Measures Format.subject.decode := by
  have hmap : ((text.pair text).sequence.map TextMap.ofList).Measures Format.textMap.decode :=
    (measures_text.pair measures_text).sequence.map _
  exact ((measures_text.sequence.map TextSet.ofList).pair
    (hmap.pair (hmap.pair measures_flag))).map _

theorem measures_authResult {K : Type} {keys : Metered K} {format : Format K}
    (hkeys : keys.Measures format.decode) :
    (authResult keys).Measures (Format.authResult format).decode :=
  (measures_subject.pair hkeys.sequence).map _

end Metered

end GenerationalCache.Wire
