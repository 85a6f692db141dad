import GenerationalCache.Builder
import GenerationalCache.Proofs.Sums

/-!
# Timeouts are exact

Whatever the reader has behind it is a list of spans, of which it holds the exact sum, and a part of
another one. Every character keeps this up, so at the end the sum is what the text says. It may also
be refused, and then the builder returns an error that has the text in it. There is one other way out:
a sum that is a full second too long and no more is neither computed nor refused.
-/

namespace GenerationalCache

namespace DurationText

/-! ## Numbers that grow -/

namespace Numeral

/-- A single digit. -/
def ofDigit {c : Char} (h : c.isDigit = true) : Numeral where
  whole := [c]
  fraction := []
  whole_ne_nil := List.cons_ne_nil c []
  isDigit_whole := by simpa using h
  isDigit_fraction := List.forall_mem_nil _

theorem isDigit_concat {ds : List Char} {c : Char} (hds : ∀ d ∈ ds, d.isDigit = true)
    (h : c.isDigit = true) : ∀ d ∈ ds ++ [c], d.isDigit = true := by
  intro d hd
  rcases List.mem_append.mp hd with hd | hd
  · exact hds d hd
  · exact List.mem_singleton.mp hd ▸ h

/-- One more digit before the point. -/
def pushWhole (w : Numeral) {c : Char} (h : c.isDigit = true) : Numeral :=
  { w with
    whole := w.whole ++ [c]
    whole_ne_nil := by simp
    isDigit_whole := isDigit_concat w.isDigit_whole h }

/-- One more digit after it. -/
def pushFraction (w : Numeral) {c : Char} (h : c.isDigit = true) : Numeral :=
  { w with
    fraction := w.fraction ++ [c]
    isDigit_fraction := isDigit_concat w.isDigit_fraction h }

theorem floor_pushWhole (w : Numeral) {c : Char} (h : c.isDigit = true) :
    (w.pushWhole h).floor = w.floor * 10 + (c.toNat - '0'.toNat) := by
  rw [floor, floor, pushWhole, Nat.ofDigitChars_append, Nat.ofDigitChars_cons, Nat.mul_comm]
  rfl

theorem decimal_pushFraction (w : Numeral) {c : Char} (h : c.isDigit = true) :
    (w.pushFraction h).decimal =
      ⟨w.decimal.numerator * 10 + (c.toNat - '0'.toNat), w.decimal.denominator * 10⟩ := by
  simp only [decimal, pushFraction, Nat.ofDigitChars_append, Nat.ofDigitChars_cons,
    Nat.ofDigitChars_nil, List.length_append, List.length_singleton, Nat.pow_succ, Nat.mul_comm 10]

end Numeral

/-! ## What is behind the reader -/

/-- What the reader is in the middle of is what the characters since the last span say. -/
def Phase.Stands (spans : List Span) (rest : List Char) : Phase → Prop
  | .between _ started => (∀ c ∈ rest, Text.isBlank c = true) ∧ (started = true → spans ≠ [])
  | .number n => ∃ w : Numeral, w.fraction = [] ∧ visible rest = w.whole ∧ n = w.floor
  | .fraction n f _ =>
    ∃ w : Numeral, visible rest = w.whole ++ '.' :: w.fraction ∧ n = w.floor ∧ f = w.decimal
  | .unit n f letters => ∃ (w : Numeral) (front : List Char),
    rest = front ++ letters.reverse ∧ visible front = w.chars ∧ n = w.floor ∧ f = w.fraction?

/-- The reader holds the exact sum of the spans behind it. -/
def Reader.Stands (r : Reader) (cs : List Char) : Prop :=
  ∃ spans before rest, cs = before ++ rest ∧ Written before spans ∧
    (r.sum.total : ℚ) = nanosOf spans ∧ r.phase.Stands spans rest

/-- The characters are spans that are a full second too long together, or would be without the
fraction of the last one. -/
def FillsUp (cs : List Char) : Prop :=
  ∃ spans s, Written cs (spans ++ [s]) ∧ (nanosOf spans + s.nanos = Duration.capacity ∨
    nanosOf spans + s.wholeNanos = Duration.capacity)

/-- A span that ends is behind the reader. -/
theorem Reader.Stands.close {r : Reader} {cs : List Char} {n : Nat} {f : Option Fraction}
    {letters : List Char} (h : r.Stands cs) (hphase : r.phase = .unit n f letters) :
    Outcome (fun d => ∃ spans, spans ≠ [] ∧ Written cs spans ∧ (d.total : ℚ) = nanosOf spans)
      (FillsUp cs) (closeSpan r.sum n f (String.ofList letters.reverse)) := by
  obtain ⟨spans, before, rest, rfl, hwritten, hsum, hrest⟩ := h
  rw [hphase] at hrest
  obtain ⟨w, front, rfl, hfront, rfl, rfl⟩ := hrest
  -- the letters are a unit, and then there is a span, or they are refused
  by_cases hunit : ∃ u : TimeUnit, String.ofList letters.reverse ∈ u.spellings
  · obtain ⟨u, hu⟩ := hunit
    let s : Span := ⟨w, u, String.ofList letters.reverse, hu⟩
    have hs : Written (before ++ (front ++ letters.reverse)) (spans ++ [s]) := by
      have hsnoc := hwritten.snoc (s := s) hfront
      rwa [String.toList_ofList] at hsnoc
    refine (outcome_closeSpan r.sum s).mono ?_ ?_
    · intro d hd
      exact ⟨spans ++ [s], by simp, hs, by rw [hd, hsum, nanosOf_concat]⟩
    · intro hfull
      rw [hsum] at hfull
      exact ⟨spans, s, hs, hfull⟩
  · exact closeSpan_of_not_mem r.sum _ _ fun u hu => hunit ⟨u, hu⟩

/-! ## Reading on -/

/-- A character is taken in, or the spans before it are too long, or it is refused. -/
abbrev Goes (before after : List Char) : Except Failure Reader → Prop :=
  Outcome (Reader.Stands · after) (FillsUp before)

section

variable {r : Reader} {spans : List Span} {before rest : List Char} {c : Char}

/-- A character that belongs to what the reader is in the middle of. -/
theorem stands_after {phase : Phase} (hwritten : Written before spans)
    (hsum : (r.sum.total : ℚ) = nanosOf spans) (hrest : phase.Stands spans (rest ++ [c])) :
    (r.after c phase).Stands (before ++ rest ++ [c]) :=
  ⟨spans, before, rest ++ [c], List.append_assoc .., hwritten, hsum, hrest⟩

theorem goes_between {start : Nat} {started : Bool} (hphase : r.phase = .between start started)
    (hwritten : Written before spans) (hsum : (r.sum.total : ℚ) = nanosOf spans)
    (hrest : (Phase.between start started).Stands spans rest) :
    Goes (before ++ rest) (before ++ rest ++ [c]) (r.step c) := by
  obtain ⟨hblank, hstarted⟩ := hrest
  unfold Reader.step
  rw [hphase]
  dsimp only
  split
  · next d hd =>
    obtain ⟨hdigit, rfl⟩ := isDigit_of_digit? hd
    refine .exact (stands_after hwritten hsum ⟨.ofDigit hdigit, rfl, ?_, ?_⟩)
    · rw [visible_concat (.inl hdigit), visible_eq_nil hblank]
      rfl
    · exact (Nat.zero_add _).symm
  · split_ifs with hc
    · refine .exact (stands_after hwritten hsum ⟨fun x hx => ?_, hstarted⟩)
      rcases List.mem_append.mp hx with hx | hx
      · exact hblank x hx
      · exact List.mem_singleton.mp hx ▸ hc
    · exact .refused Failure.noConfusion

theorem goes_number {n : Nat} (hphase : r.phase = .number n) (hwritten : Written before spans)
    (hsum : (r.sum.total : ℚ) = nanosOf spans) (hrest : (Phase.number n).Stands spans rest) :
    Goes (before ++ rest) (before ++ rest ++ [c]) (r.step c) := by
  obtain ⟨w, hw, hvisible, rfl⟩ := hrest
  unfold Reader.step
  rw [hphase]
  dsimp only
  split
  · next d hd =>
    obtain ⟨hdigit, rfl⟩ := isDigit_of_digit? hd
    refine (outcome_fit _).map ?_ False.elim
    rintro _ rfl
    refine stands_after hwritten hsum ⟨w.pushWhole hdigit, hw, ?_, ?_⟩
    · rw [visible_concat (.inl hdigit), hvisible]
      rfl
    · rw [Numeral.floor_pushWhole]
  · split_ifs with hblank hletter hpoint
    · refine .exact (stands_after hwritten hsum ⟨w, hw, ?_, rfl⟩)
      rw [visible_blank hblank, hvisible]
    · refine .exact (stands_after hwritten hsum ⟨w, rest, rfl, ?_, rfl, ?_⟩)
      · rw [hvisible, Numeral.chars, Numeral.decimals, if_pos hw, List.append_nil]
      · rw [Numeral.fraction?, if_pos hw]
    · refine .exact (stands_after hwritten hsum ⟨w, ?_, rfl, ?_⟩)
      · rw [visible_concat (.inr (.inr hpoint)), hvisible, hpoint, hw]
      · rw [Numeral.decimal, hw]
        rfl
    · exact .refused Failure.noConfusion

theorem goes_fraction {n mark : Nat} {f : Fraction} (hphase : r.phase = .fraction n f mark)
    (hwritten : Written before spans) (hsum : (r.sum.total : ℚ) = nanosOf spans)
    (hrest : (Phase.fraction n f mark).Stands spans rest) :
    Goes (before ++ rest) (before ++ rest ++ [c]) (r.step c) := by
  obtain ⟨w, hvisible, rfl, rfl⟩ := hrest
  unfold Reader.step
  rw [hphase]
  dsimp only
  split
  · next d hd =>
    obtain ⟨hdigit, rfl⟩ := isDigit_of_digit? hd
    refine (outcome_fit _).bind ?_ False.elim
    rintro _ rfl
    refine (outcome_fit _).bind ?_ False.elim
    rintro _ rfl
    refine .exact (stands_after hwritten hsum ⟨w.pushFraction hdigit, ?_, rfl, ?_⟩)
    · rw [visible_concat (.inl hdigit), hvisible, List.append_assoc]
      rfl
    · rw [Numeral.decimal_pushFraction]
  · split_ifs with hblank hletter
    · refine .exact (stands_after hwritten hsum ⟨w, ?_, rfl, rfl⟩)
      rw [visible_blank hblank, hvisible]
    · -- a point with no digits behind it is refused, so there are some
      rw [Bool.and_eq_true, bne_iff_ne] at hletter
      have hw : w.fraction ≠ [] := by
        intro hnil
        refine hletter.2 ?_
        rw [Numeral.decimal, hnil]
        rfl
      refine .exact (stands_after hwritten hsum ⟨w, rest, rfl, ?_, rfl, ?_⟩)
      · rw [hvisible, Numeral.chars, Numeral.decimals, if_neg hw]
      · rw [Numeral.fraction?, if_neg hw]
    · exact .refused Failure.noConfusion

theorem goes_unit {cs : List Char} {n : Nat} {f : Option Fraction} {letters : List Char}
    (hphase : r.phase = .unit n f letters) (h : r.Stands cs) :
    Goes cs (cs ++ [c]) (r.step c) := by
  unfold Reader.step
  rw [hphase]
  dsimp only
  split
  · next d hd =>
    obtain ⟨hdigit, rfl⟩ := isDigit_of_digit? hd
    -- the digit begins another number, with the span before it behind the reader
    refine (h.close hphase).bind ?_ id
    rintro sum ⟨spans, -, hwritten, hsum⟩
    refine .exact ⟨spans, cs, [c], rfl, hwritten, hsum, .ofDigit hdigit, rfl, ?_, ?_⟩
    · exact visible_singleton (.inl hdigit)
    · exact (Nat.zero_add _).symm
  · split_ifs with hblank hletter
    · refine (h.close hphase).bind ?_ id
      rintro sum ⟨spans, hne, hwritten, hsum⟩
      exact .exact ⟨spans, cs, [c], rfl, hwritten, hsum, by simpa using hblank, fun _ => hne⟩
    · obtain ⟨spans, before, rest, rfl, hwritten, hsum, hrest⟩ := h
      rw [hphase] at hrest
      obtain ⟨w, front, rfl, hfront, rfl, rfl⟩ := hrest
      refine .exact (stands_after hwritten hsum ⟨w, front, ?_, hfront, rfl, rfl⟩)
      rw [List.reverse_cons, List.append_assoc]
    · exact .refused Failure.noConfusion

end

/-- **Every character keeps the sum exact.** -/
theorem goes_step {r : Reader} {cs : List Char} (h : r.Stands cs) (c : Char) :
    Goes cs (cs ++ [c]) (r.step c) := by
  cases hphase : r.phase with
  | unit n f letters => exact goes_unit hphase h
  | between start started =>
      obtain ⟨spans, before, rest, rfl, hwritten, hsum, hrest⟩ := h
      exact goes_between hphase hwritten hsum (hphase ▸ hrest)
  | number n =>
      obtain ⟨spans, before, rest, rfl, hwritten, hsum, hrest⟩ := h
      exact goes_number hphase hwritten hsum (hphase ▸ hrest)
  | fraction n f mark =>
      obtain ⟨spans, before, rest, rfl, hwritten, hsum, hrest⟩ := h
      exact goes_fraction hphase hwritten hsum (hphase ▸ hrest)

theorem outcome_foldlM {r : Reader} {cs : List Char} (h : r.Stands cs) (rest : List Char) :
    Outcome (Reader.Stands · (cs ++ rest)) (∃ begins, begins <+: cs ++ rest ∧ FillsUp begins)
      (rest.foldlM Reader.step r) := by
  induction rest generalizing r cs with
  | nil => exact .exact (by rwa [List.append_nil])
  | cons c rest ih =>
      rw [List.foldlM_cons, List.append_cons]
      refine (goes_step h c).bind (fun r' hr' => ih hr') fun hfull => ?_
      rw [List.append_assoc]
      exact ⟨cs, List.prefix_append _ _, hfull⟩

theorem stands_start : ({} : Reader).Stands [] :=
  ⟨[], [], [], rfl, .nil, by simp [Duration.total, Duration.zero, nanosOf], by
    exact ⟨List.forall_mem_nil _, fun h => absurd h Bool.false_ne_true⟩⟩

/-- Characters that are spans and then blanks, and how long the spans are together. -/
def Lasts (cs : List Char) (nanos : ℚ) : Prop :=
  ∃ spans before trailing, spans ≠ [] ∧ cs = before ++ trailing ∧ Written before spans ∧
    (∀ c ∈ trailing, Text.isBlank c = true) ∧ nanos = nanosOf spans

theorem outcome_finish {r : Reader} {cs : List Char} (h : r.Stands cs) :
    Outcome (fun d => Lasts cs d.total) (FillsUp cs) r.finish := by
  unfold Reader.finish
  cases hphase : r.phase with
  | unit n f letters =>
      refine (h.close hphase).mono ?_ id
      rintro d ⟨spans, hne, hwritten, hsum⟩
      exact ⟨spans, cs, [], hne, (List.append_nil cs).symm, hwritten, List.forall_mem_nil _, hsum⟩
  | between start started =>
      obtain ⟨spans, before, rest, rfl, hwritten, hsum, hrest⟩ := h
      rw [hphase] at hrest
      obtain ⟨hblank, hstarted⟩ := hrest
      dsimp only
      split_ifs with hs
      · exact .exact ⟨spans, before, rest, hstarted hs, rfl, hwritten, hblank, hsum⟩
      · exact .refused Failure.noConfusion
  | number n => exact .refused Failure.noConfusion
  | fraction n f mark =>
      dsimp only
      split_ifs
      · exact .refused Failure.noConfusion
      · exact .refused Failure.noConfusion

/-! ## Texts -/

theorem exists_trimBlanks (cs : List Char) : ∃ leading trailing,
    cs = leading ++ (Text.trimBlanks cs ++ trailing) ∧
      (∀ c ∈ leading, Text.isBlank c = true) ∧ (∀ c ∈ trailing, Text.isBlank c = true) := by
  refine ⟨cs.takeWhile Text.isBlank,
    ((cs.dropWhile Text.isBlank).reverse.takeWhile Text.isBlank).reverse, ?_, ?_, ?_⟩
  · rw [Text.trimBlanks, ← List.reverse_append, List.takeWhile_append_dropWhile,
      List.reverse_reverse, List.takeWhile_append_dropWhile]
  · exact fun c hc => List.mem_takeWhile_imp hc
  · exact fun c hc => List.mem_takeWhile_imp (List.mem_reverse.mp hc)

theorem Written.eq_nil {cs : List Char} (h : Written cs []) : cs = [] := by
  generalize hspans : [] = spans at h
  cases h with
  | nil => rfl
  | snoc => exact absurd hspans.symm (List.concat_ne_nil _ _)

/-- Blanks may come first. -/
theorem Written.of_blanks {cs leading : List Char} {spans : List Span} (h : Written cs spans)
    (hne : spans ≠ []) (hblank : ∀ c ∈ leading, Text.isBlank c = true) :
    Written (leading ++ cs) spans := by
  induction h with
  | nil => exact absurd rfl hne
  | @snoc cs front spans s before number ih =>
      by_cases hspans : spans = []
      · subst hspans
        have hfront : visible (leading ++ front) = s.number.chars := by
          rw [visible_append, visible_eq_nil hblank, number]
          rfl
        have hs := Written.nil.snoc hfront
        rw [List.append_assoc] at hs
        rwa [before.eq_nil]
      · rw [← List.append_assoc]
        exact (ih hspans).snoc number

/-- The text is one of spans, which last so long. -/
structure Denotes (text : String) (nanos : ℚ) : Prop where
  /-- It is the text of some spans. -/
  spelled : ∃ spans, spans ≠ [] ∧ Spells text spans
  /-- However it is taken apart, they are as long together. -/
  exact : ∀ spans, Spells text spans → nanos = nanosOf spans

theorem denotes_of_lasts {text : String} {nanos : ℚ}
    (h : Lasts (Text.trimBlanks text.toList) nanos) : Denotes text nanos := by
  obtain ⟨spans, before, rest, hne, htrim, hwritten, hblank, rfl⟩ := h
  obtain ⟨leading, trailing, htext, hleading, htrailing⟩ := exists_trimBlanks text.toList
  have hspells : Spells text spans := by
    refine ⟨leading ++ before, rest ++ trailing, hwritten.of_blanks hne hleading, ?_, ?_⟩
    · intro c hc
      rcases List.mem_append.mp hc with hc | hc
      · exact hblank c hc
      · exact htrailing c hc
    · rw [htext, htrim, List.append_assoc, List.append_assoc]
  exact ⟨⟨spans, hne, hspells⟩, fun spans' hspans' => by rw [hspells.unique hspans']⟩

/-- Reading has come to spans that are a full second too long. -/
def Overfull (text : String) : Prop :=
  ∃ begins, begins <+: Text.trimBlanks text.toList ∧ FillsUp begins

theorem outcome_read (text : String) :
    Outcome (fun d => Text.trimBlanks text.toList = ['0'] ∧ d.total = 0 ∨ Denotes text d.total)
      (Overfull text) (read text) := by
  unfold read
  dsimp only
  split_ifs with hzero
  · exact .exact (.inl ⟨hzero, rfl⟩)
  · refine (outcome_foldlM stands_start _).bind (fun r hr => ?_) id
    refine (outcome_finish hr).mono (fun d hd => .inr (denotes_of_lasts hd)) fun hfull => ?_
    exact ⟨_, List.prefix_refl _, hfull⟩

end DurationText

namespace Builder

/-- A timeout in nanoseconds, none being zero. -/
def nanosOf? (timeout : Option Duration) : Nat := timeout.elim 0 Duration.total

/-- **A configured timeout is taken exactly or not at all.** Either the builder returns an error with
the text as it was configured. Or it takes over all settings, with a timeout that is the sum of the
spans of the text as rational numbers, and that is none if the sum is zero. Or the call ends in an
overflow: then the text begins with spans that last a full second longer than the most seconds that
fit 64 bits, no more and no less, perhaps with the fraction of the last one left out. -/
theorem withConfig_exact (b : Builder) (config : Config) :
    (∃ reason, b.withConfig config = .error (.invalidTimeout config.timeout reason)) ∨
    (∃ timeout, b.withConfig config = .ok
        { b with initialSize := config.initialSize, entryLimit := config.maxSize, timeout } ∧
      (timeout = none ↔ nanosOf? timeout = 0) ∧ nanosOf? timeout < Duration.capacity ∧
      (Text.trimBlanks config.timeout.toList = ['0'] ∧ timeout = none ∨
        DurationText.Denotes config.timeout (nanosOf? timeout))) ∨
    (b.withConfig config = .error .durationOverflow ∧ DurationText.Overfull config.timeout) := by
  have houtcome := DurationText.outcome_read config.timeout
  unfold withConfig
  cases hread : DurationText.read config.timeout with
  | error failure =>
      rw [hread] at houtcome
      cases houtcome with
      | full h => exact .inr (.inr ⟨rfl, h⟩)
      | refused h =>
          refine .inl ⟨failure.message, ?_⟩
          cases failure with
          | overflow => exact absurd rfl h
          | _ => rfl
  | ok d =>
      rw [hread] at houtcome
      cases houtcome with
      | exact h =>
          refine .inr (.inl ⟨if d.total = 0 then none else some d, rfl, ?_⟩)
          have hnanos : nanosOf? (if d.total = 0 then none else some d) = d.total := by
            split_ifs with hzero
            · exact hzero.symm
            · rfl
          rw [hnanos]
          refine ⟨by simp, d.total_lt_capacity, h.imp (fun h => ⟨h.1, if_pos h.2⟩) id⟩

/-- The most seconds and a second of nanoseconds. -/
example : new.withConfig { timeout := "18446744073709551615s 1000000000ns" } =
    .error .durationOverflow :=
  rfl

end Builder

end GenerationalCache
