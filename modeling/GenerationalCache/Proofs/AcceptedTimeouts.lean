import GenerationalCache.Proofs.ExactTimeouts

/-!
# Timeouts that are accepted

A text of whole numbers with units is read whatever its white space. The reader takes in one span
after the other. Behind a span it is still among the letters of the unit, or already between two
spans; in both places it is ready for a blank, for the next number or for the end, and the sum comes
out the same. Sums do not depend on the order in which they are made, so neither does the timeout.
-/

namespace GenerationalCache

/-- Durations of one length are the same. -/
theorem Duration.eq_of_total_eq {d e : Duration} (h : d.total = e.total) : d = e := by
  obtain ⟨secs, nanos, hsecs, hnanos⟩ := d
  obtain ⟨secs', nanos', hsecs', hnanos'⟩ := e
  simp only [Duration.total, nanosPerSec] at h
  obtain rfl : secs = secs' := by omega
  obtain rfl : nanos = nanos' := by omega
  rfl

namespace DurationText

/-! ## The reader behind a span -/

/-- The reader has just read the letters of a unit, and holds the sum with its span. -/
def Reader.Closes (r : Reader) (total : Nat) : Prop :=
  ∃ n f letters d, r.phase = .unit n f letters ∧
    closeSpan r.sum n f (String.ofList letters.reverse) = .ok d ∧ d.total = total

/-- The reader can go on with a number. -/
def Reader.Ready (r : Reader) (total : Nat) : Prop :=
  (∃ start started, r.phase = .between start started) ∧ r.sum.total = total ∨ r.Closes total

section

variable {r : Reader} {total n : Nat} {c : Char}

theorem step_blank_of_ready (h : r.Ready total) (hc : Text.isBlank c = true) :
    ∃ r', r.step c = .ok r' ∧ r'.Ready total := by
  unfold Reader.step
  obtain ⟨⟨start, started, hphase⟩, hsum⟩ | ⟨n, f, letters, d, hphase, hclose, hd⟩ := h
  · rw [hphase, digit?_of_isBlank hc]
    dsimp only
    rw [if_pos hc]
    exact ⟨_, rfl, .inl ⟨⟨start, started, rfl⟩, hsum⟩⟩
  · rw [hphase, digit?_of_isBlank hc]
    dsimp only
    rw [if_pos hc, hclose]
    exact ⟨_, rfl, .inl ⟨⟨_, _, rfl⟩, hd⟩⟩

theorem step_digit_of_ready (h : r.Ready total) (hc : c.isDigit = true) :
    ∃ r', r.step c = .ok r' ∧ r'.phase = .number (c.toNat - '0'.toNat) ∧ r'.sum.total = total := by
  unfold Reader.step
  obtain ⟨⟨start, started, hphase⟩, hsum⟩ | ⟨n, f, letters, d, hphase, hclose, hd⟩ := h
  · rw [hphase, digit?_of_isDigit hc]
    exact ⟨_, rfl, rfl, hsum⟩
  · rw [hphase, digit?_of_isDigit hc]
    dsimp only
    rw [hclose]
    exact ⟨_, rfl, rfl, hd⟩

theorem finish_of_closes (h : r.Closes total) : ∃ d, r.finish = .ok d ∧ d.total = total := by
  obtain ⟨n, f, letters, d, hphase, hclose, hd⟩ := h
  refine ⟨d, ?_, hd⟩
  rw [Reader.finish, hphase]
  exact hclose

/-! ## Numbers -/

theorem le_ofDigitChars (n : Nat) (cs : List Char) : n ≤ Nat.ofDigitChars 10 cs n := by
  induction cs generalizing n with
  | nil => exact Nat.le_refl n
  | cons c cs ih =>
      rw [Nat.ofDigitChars_cons]
      have := ih (10 * n + (c.toNat - '0'.toNat))
      omega

/-- The digits of a number, with blanks in between. -/
theorem foldlM_digits {front : List Char} (hphase : r.phase = .number n)
    (hdigits : ∀ c ∈ visible front, c.isDigit = true)
    (hfits : Nat.ofDigitChars 10 (visible front) n < UInt64.size) :
    ∃ r', front.foldlM Reader.step r = .ok r' ∧
      r'.phase = .number (Nat.ofDigitChars 10 (visible front) n) ∧ r'.sum = r.sum := by
  induction front generalizing r n with
  | nil => exact ⟨r, rfl, hphase, rfl⟩
  | cons c front ih =>
      cases hblank : Text.isBlank c with
      | true =>
          have hstep : r.step c = .ok (r.after c (.number n)) := by
            rw [Reader.step, hphase, digit?_of_isBlank hblank]
            exact if_pos hblank
          rw [visible_cons_blank hblank] at hdigits hfits ⊢
          rw [List.foldlM_cons, hstep]
          exact ih rfl hdigits hfits
      | false =>
          rw [visible_cons hblank] at hdigits hfits ⊢
          rw [Nat.ofDigitChars_cons] at hfits ⊢
          obtain ⟨hdigit, hdigits⟩ := List.forall_mem_cons.mp hdigits
          -- what has been read of a number is no more than the number
          have hlt : n * 10 + (c.toNat - '0'.toNat) < UInt64.size := by
            have hle := le_ofDigitChars (10 * n + (c.toNat - '0'.toNat)) (visible front)
            omega
          have hstep : r.step c =
              .ok (r.after c (.number (n * 10 + (c.toNat - '0'.toNat)))) := by
            rw [Reader.step, hphase, digit?_of_isDigit hdigit]
            dsimp only
            rw [fit_of_lt hlt]
            rfl
          rw [List.foldlM_cons, hstep]
          rw [Nat.mul_comm 10] at hfits ⊢
          exact ih rfl hdigits hfits

/-- A number, with blanks before it. -/
theorem foldlM_number {front : List Char} (h : r.Ready total) (hne : visible front ≠ [])
    (hdigits : ∀ c ∈ visible front, c.isDigit = true)
    (hfits : Nat.ofDigitChars 10 (visible front) 0 < UInt64.size) :
    ∃ r', front.foldlM Reader.step r = .ok r' ∧
      r'.phase = .number (Nat.ofDigitChars 10 (visible front) 0) ∧ r'.sum.total = total := by
  induction front generalizing r with
  | nil => exact absurd rfl hne
  | cons c front ih =>
      rw [List.foldlM_cons]
      cases hblank : Text.isBlank c with
      | true =>
          obtain ⟨r', hstep, hready⟩ := step_blank_of_ready h hblank
          rw [visible_cons_blank hblank] at hne hdigits hfits ⊢
          rw [hstep]
          exact ih hready hne hdigits hfits
      | false =>
          rw [visible_cons hblank] at hdigits hfits ⊢
          rw [Nat.ofDigitChars_cons, Nat.mul_zero, Nat.zero_add] at hfits ⊢
          obtain ⟨hdigit, hdigits⟩ := List.forall_mem_cons.mp hdigits
          obtain ⟨r', hstep, hphase, hsum⟩ := step_digit_of_ready h hdigit
          rw [hstep]
          obtain ⟨r'', hrest, hphase', hsum'⟩ := foldlM_digits hphase hdigits hfits
          exact ⟨r'', hrest, hphase', by rw [hsum', hsum]⟩

/-! ## Units -/

theorem foldlM_letters {f : Option Fraction} {letters more : List Char}
    (hphase : r.phase = .unit n f letters) (hmore : ∀ c ∈ more, isUnitLetter c = true) :
    ∃ r', more.foldlM Reader.step r = .ok r' ∧
      r'.phase = .unit n f (more.reverse ++ letters) ∧ r'.sum = r.sum := by
  induction more generalizing r letters with
  | nil => exact ⟨r, rfl, hphase, rfl⟩
  | cons c more ih =>
      obtain ⟨hc, hmore⟩ := List.forall_mem_cons.mp hmore
      have hstep : r.step c = .ok (r.after c (.unit n f (c :: letters))) := by
        rw [Reader.step, hphase, digit?_eq_none (not_isDigit_of_isUnitLetter hc)]
        dsimp only
        rw [not_isBlank (.inr (.inl hc)), if_neg Bool.false_ne_true, if_pos hc]
      rw [List.foldlM_cons, hstep, List.reverse_cons, List.append_assoc]
      exact ih rfl hmore

theorem foldlM_unit {letters : List Char} (hphase : r.phase = .number n) (hne : letters ≠ [])
    (hletters : ∀ c ∈ letters, isUnitLetter c = true) :
    ∃ r', letters.foldlM Reader.step r = .ok r' ∧
      r'.phase = .unit n none letters.reverse ∧ r'.sum = r.sum := by
  cases letters with
  | nil => exact absurd rfl hne
  | cons c letters =>
      obtain ⟨hc, hletters⟩ := List.forall_mem_cons.mp hletters
      have hstep : r.step c = .ok (r.after c (.unit n none [c])) := by
        rw [Reader.step, hphase, digit?_eq_none (not_isDigit_of_isUnitLetter hc)]
        dsimp only
        rw [not_isBlank (.inr (.inl hc)), if_neg Bool.false_ne_true, if_pos hc]
      rw [List.foldlM_cons, hstep, List.reverse_cons]
      exact foldlM_letters rfl hletters

/-! ## Spans -/

/-- A whole number of units, neither of which is too large. -/
structure Span.Fits (s : Span) : Prop where
  /-- There is no fraction. -/
  whole : s.number.fraction = []
  /-- The number fits into 64 bits. -/
  number : s.number.floor < UInt64.size
  /-- So many units fit, too, as they are measured. -/
  product : s.unit.Holds s.number.floor

/-- How long spans are together, fractions left out. -/
def wholeNanosOf (spans : List Span) : Nat := (spans.map Span.wholeNanos).sum

theorem wholeNanosOf_concat (spans : List Span) (s : Span) :
    wholeNanosOf (spans ++ [s]) = wholeNanosOf spans + s.wholeNanos := by
  simp only [wholeNanosOf, List.map_append, List.sum_append, List.map_cons, List.map_nil,
    List.sum_cons, List.sum_nil, Nat.add_zero]

theorem closeSpan_of_fits {sum : Duration} {s : Span} (hs : s.Fits)
    (htotal : sum.total + s.wholeNanos < Duration.capacity) :
    ∃ d, closeSpan sum s.number.floor none s.spelling = .ok d ∧
      d.total = sum.total + s.wholeNanos := by
  obtain ⟨d, hd, hsum⟩ := addWhole_of_holds hs.product htotal
  refine ⟨d, ?_, hsum⟩
  rw [closeSpan_spelling, hd]
  rfl

/-- **A span that fits is read**, whatever blanks stand before it and within its number. -/
theorem foldlM_span {front : List Char} {s : Span} (h : r.Ready total)
    (hnumber : visible front = s.number.chars) (hs : s.Fits)
    (htotal : total + s.wholeNanos < Duration.capacity) :
    ∃ r', (front ++ s.spelling.toList).foldlM Reader.step r = .ok r' ∧
      r'.Closes (total + s.wholeNanos) := by
  have hwhole : visible front = s.number.whole := by
    rw [hnumber, Numeral.chars, Numeral.decimals, if_pos hs.whole, List.append_nil]
  obtain ⟨hne, hletters⟩ := letters_of_mem_spellings s.spelling_mem
  obtain ⟨r', hfront, hphase, rfl⟩ := foldlM_number h (hwhole ▸ s.number.whole_ne_nil)
    (hwhole ▸ s.number.isDigit_whole) (hwhole ▸ hs.number)
  obtain ⟨r'', hunit, hphase', hsum⟩ := foldlM_unit hphase hne hletters
  rw [← hsum] at htotal
  obtain ⟨d, hclose, hd⟩ := closeSpan_of_fits hs htotal
  refine ⟨r'', ?_, _, _, _, d, hphase', ?_, by rw [hd, hsum]⟩
  · rw [List.foldlM_append, hfront]
    exact hunit
  · rw [List.reverse_reverse, String.ofList_toList, hwhole]
    exact hclose

/-- **So are spans one after the other.** -/
theorem foldlM_written {cs : List Char} {spans : List Span} (h : Written cs spans)
    (hfits : ∀ s ∈ spans, s.Fits) (htotal : wholeNanosOf spans < Duration.capacity) :
    ∃ r, cs.foldlM Reader.step ({} : Reader) = .ok r ∧ r.Ready (wholeNanosOf spans) ∧
      (spans ≠ [] → r.Closes (wholeNanosOf spans)) := by
  induction h with
  | nil => exact ⟨{}, rfl, .inl ⟨⟨0, false, rfl⟩, rfl⟩, fun hne => absurd rfl hne⟩
  | @snoc cs front spans s before number ih =>
      -- the spans so far are together no longer than all of them
      obtain ⟨hspans, hs⟩ := List.forall_mem_append.mp hfits
      rw [wholeNanosOf_concat] at htotal ⊢
      obtain ⟨r, hread, hready, -⟩ := ih hspans (by omega)
      obtain ⟨r', hspan, hcloses⟩ := foldlM_span hready number (hs s List.mem_cons_self) htotal
      refine ⟨r', ?_, .inr hcloses, fun _ => hcloses⟩
      rw [List.foldlM_append, hread]
      exact hspan

end

/-! ## Texts -/

theorem Span.chars_ne_nil (s : Span) : s.number.chars ≠ [] := fun hnil =>
  s.number.whole_ne_nil (List.append_eq_nil_iff.mp hnil).1

theorem Written.visible_ne_nil {cs : List Char} {spans : List Span} (h : Written cs spans)
    (hne : spans ≠ []) : visible cs ≠ [] := by
  rw [h.visible_eq]
  cases spans with
  | nil => exact absurd rfl hne
  | cons s spans =>
      intro hnil
      rw [List.flatMap_cons, Span.chars, List.append_assoc] at hnil
      exact s.chars_ne_nil (List.append_eq_nil_iff.mp hnil).1

theorem Written.dropWhile {cs : List Char} {spans : List Span} (h : Written cs spans) :
    Written (cs.dropWhile Text.isBlank) spans := by
  induction h with
  | nil => exact .nil
  | @snoc cs front spans s before number ih =>
      by_cases hspans : spans = []
      · subst hspans
        have hfront : visible front ≠ [] := number ▸ s.chars_ne_nil
        rw [before.eq_nil, List.nil_append, dropWhile_append_of_visible hfront]
        exact Written.nil.snoc ((visible_dropWhile front).trans number)
      · rw [dropWhile_append_of_visible (before.visible_ne_nil hspans)]
        exact ih.snoc number

theorem Written.exists_concat {cs : List Char} {spans : List Span} (h : Written cs spans)
    (hne : spans ≠ []) : ∃ begins c, cs = begins ++ [c] ∧ isUnitLetter c = true := by
  cases h with
  | nil => exact absurd rfl hne
  | @snoc cs front spans s before number =>
      obtain ⟨hspelling, hletters⟩ := letters_of_mem_spellings s.spelling_mem
      refine ⟨cs ++ (front ++ s.spelling.toList.dropLast), s.spelling.toList.getLast hspelling,
        ?_, hletters _ (List.getLast_mem hspelling)⟩
      rw [List.append_assoc, List.append_assoc, List.dropLast_append_getLast]

/-- Blanks at both ends make no difference. -/
theorem Written.trimBlanks {cs trailing : List Char} {spans : List Span} (h : Written cs spans)
    (hne : spans ≠ []) (hblank : ∀ c ∈ trailing, Text.isBlank c = true) :
    Written (Text.trimBlanks (cs ++ trailing)) spans := by
  have htrim : Text.trimBlanks (cs ++ trailing) = cs.dropWhile Text.isBlank := by
    obtain ⟨begins, c, hcs, hletter⟩ := h.dropWhile.exists_concat hne
    have hrev : ∀ c ∈ trailing.reverse, Text.isBlank c = true :=
      fun c hc => hblank c (List.mem_reverse.mp hc)
    rw [Text.trimBlanks, dropWhile_append_of_visible (h.visible_ne_nil hne), hcs,
      List.reverse_append, List.dropWhile_append_of_pos hrev, List.reverse_append,
      List.reverse_singleton, List.singleton_append, List.dropWhile_cons,
      not_isBlank (.inr (.inl hletter)), if_neg Bool.false_ne_true, List.reverse_cons,
      List.reverse_reverse]
  rw [htrim]
  exact h.dropWhile

/-- **A text of spans that fit is read as their sum.** -/
theorem read_of_spells {text : String} {spans : List Span} (h : Spells text spans)
    (hne : spans ≠ []) (hfits : ∀ s ∈ spans, s.Fits)
    (htotal : wholeNanosOf spans < Duration.capacity) :
    ∃ d, read text = .ok d ∧ d.total = wholeNanosOf spans := by
  obtain ⟨cs, trailing, hwritten, hblank, htext⟩ := h
  have htrimmed := hwritten.trimBlanks hne hblank
  rw [← htext] at htrimmed
  obtain ⟨r, hread, -, hcloses⟩ := foldlM_written htrimmed hfits htotal
  obtain ⟨d, hfinish, hd⟩ := finish_of_closes (hcloses hne)
  refine ⟨d, ?_, hd⟩
  -- it is not the bare zero, which ends in a digit
  have hnotZero : Text.trimBlanks text.toList ≠ ['0'] := by
    intro hzero
    obtain ⟨begins, c, hcs, hletter⟩ := htrimmed.exists_concat hne
    have hlast : c ∈ ['0'] := hzero ▸ hcs ▸ List.mem_append_right _ List.mem_cons_self
    obtain rfl := List.mem_singleton.mp hlast
    exact absurd hletter (by decide)
  unfold read
  dsimp only
  rw [if_neg hnotZero, readChars, hread]
  exact hfinish

/-- What a span says, whatever the spelling of its unit. -/
def Span.amount (s : Span) : Nat × TimeUnit := (s.number.floor, s.unit)

theorem Span.Fits.of_amount {s t : Span} (h : s.Fits) (ht : t.number.fraction = [])
    (hamount : t.amount = s.amount) : t.Fits := by
  obtain ⟨hfloor, hunit⟩ := Prod.mk.inj hamount
  exact ⟨ht, hfloor ▸ h.number, hfloor ▸ hunit ▸ h.product⟩

/-- Sums do not depend on the order. -/
theorem wholeNanosOf_perm {spans spans' : List Span}
    (h : (spans'.map Span.amount).Perm (spans.map Span.amount)) :
    wholeNanosOf spans' = wholeNanosOf spans := by
  have hnanos : Span.wholeNanos = (fun a : Nat × TimeUnit => a.1 * a.2.nanos) ∘ Span.amount := rfl
  rw [wholeNanosOf, wholeNanosOf, hnanos, ← List.map_map, ← List.map_map]
  exact (h.map _).sum_eq

end DurationText

namespace Builder

open DurationText

theorem withConfig_of_read {b : Builder} {config : Config} {d : Duration}
    (h : read config.timeout = .ok d) : b.withConfig config = .ok
      { b with
        initialSize := config.initialSize
        entryLimit := config.maxSize
        timeout := if d.total = 0 then none else some d } := by
  unfold withConfig
  rw [h]
  rfl

/-- **Every list of spans is accepted with its meaning**: any whole numbers with any spellings of
units, written with any blanks before, between and after them. The numbers have to fit 64 bits, as do
the spans as they are measured, of which the short ones leave room for a second; and together they
have to last less than all the seconds of 64 bits and one more. Then the builder takes over all
settings, the timeout being the exact sum. A sum of zero means no timeout, and no scheduler. Any other
text that says the same amounts, in whatever order and spelling and with whatever blanks, makes no
difference. -/
theorem withConfig_accepts_spans (b : Builder) (config : Config) (spans : List Span)
    (hne : spans ≠ []) (hspells : Spells config.timeout spans) (hfits : ∀ s ∈ spans, s.Fits)
    (htotal : wholeNanosOf spans < Duration.capacity) :
    ∃ b', b.withConfig config = .ok b' ∧
      (∃ timeout, b' =
        { b with initialSize := config.initialSize, entryLimit := config.maxSize, timeout }) ∧
      nanosOf? b'.timeout = wholeNanosOf spans ∧
      (wholeNanosOf spans = 0 → b'.timeout = none ∧ b'.schedulerPeriod? = none) ∧
      ∀ text spans', Spells text spans' → (∀ s ∈ spans', s.number.fraction = []) →
        (spans'.map Span.amount).Perm (spans.map Span.amount) →
        b.withConfig { config with timeout := text } = .ok b' := by
  obtain ⟨d, hread, hd⟩ := read_of_spells hspells hne hfits htotal
  refine ⟨_, withConfig_of_read hread, ⟨_, rfl⟩, ?_, ?_, ?_⟩
  · dsimp only
    split_ifs with hzero
    · rw [← hd, hzero]
      rfl
    · exact hd
  · intro hzero
    have hnone : (if d.total = 0 then none else some d) = none := if_pos (hd.trans hzero)
    exact ⟨hnone, by rw [schedulerPeriod?, hnone]; rfl⟩
  · intro text spans' hspells' hwhole hperm
    have hfits' : ∀ s ∈ spans', s.Fits := by
      intro s' hs'
      obtain ⟨s, hs, hamount⟩ := List.mem_map.mp (hperm.subset (List.mem_map_of_mem hs'))
      exact (hfits s hs).of_amount (hwhole s' hs') hamount.symm
    have hne' : spans' ≠ [] := by
      rintro rfl
      exact hne (List.map_eq_nil_iff.mp hperm.symm.eq_nil)
    rw [← wholeNanosOf_perm hperm] at htotal hd
    obtain ⟨d', hread', hd'⟩ := read_of_spells hspells' hne' hfits' htotal
    obtain rfl := Duration.eq_of_total_eq (hd'.trans hd.symm)
    exact withConfig_of_read hread'

/-- Seven milliseconds and an hour: with leading zeros, with hardly any blanks but an unusual one, and
the other way round. -/
theorem withConfig_accepts_hour_either_way :
    let seven : Numeral := ⟨['0', '0', '7'], [], by decide, List.all_eq_true.mp rfl,
      List.forall_mem_nil _⟩
    let one : Numeral := .ofDigit (c := '1') rfl
    let ms : Span := ⟨seven, .millisecond, "ms", by decide⟩
    let hour : Span := ⟨one, .hour, "h", by decide⟩
    ∃ b', new.withConfig { timeout := "\u2003007 ms1h " } = .ok b' ∧
      nanosOf? b'.timeout = 3600007000000 ∧
      Spells "\u2003007 ms1h " [ms, hour] ∧
      new.withConfig { timeout := "1hours 7millis" } = .ok b' := by
  intro seven one ms hour
  have hspells : Spells "\u2003007 ms1h " [ms, hour] := by
    have hms := @Written.snoc [] ['\u2003', '0', '0', '7', ' '] [] ms .nil rfl
    refine ⟨_, [' '], @Written.snoc _ ['1'] [ms] hour hms rfl,
      List.forall_mem_singleton.mpr rfl, ?_⟩
    simp only [ms, hour]
    decide
  have hfits : ∀ s ∈ [ms, hour], s.Fits := by
    refine List.forall_mem_cons.mpr ⟨⟨rfl, by decide, ?_⟩, List.forall_mem_singleton.mpr
      ⟨rfl, by decide, ?_⟩⟩
    · show 7 * 1000000 + nanosPerSec ≤ UInt64.size
      decide
    · show 1 * 3600 < UInt64.size
      decide
  have htotal : wholeNanosOf [ms, hour] = 3600007000000 := by
    simp only [ms, hour, seven, one]
    decide +kernel
  obtain ⟨b', hb', -, hnanos, -, hsame⟩ :=
    withConfig_accepts_spans new { timeout := "\u2003007 ms1h " } [ms, hour]
      (List.cons_ne_nil _ _) hspells hfits (htotal ▸ by decide)
  refine ⟨b', hb', hnanos.trans htotal, hspells, ?_⟩
  let hours : Span := ⟨one, .hour, "hours", by decide⟩
  let millis : Span := ⟨.ofDigit (c := '7') rfl, .millisecond, "millis", by decide⟩
  have hspells' : Spells "1hours 7millis" [hours, millis] := by
    have hhours := @Written.snoc [] ['1'] [] hours .nil rfl
    refine ⟨_, [], @Written.snoc _ [' ', '7'] [hours] millis hhours rfl,
      List.forall_mem_nil _, ?_⟩
    simp only [hours, millis]
    decide
  exact hsame _ [hours, millis] hspells'
    (List.forall_mem_cons.mpr ⟨rfl, List.forall_mem_singleton.mpr rfl⟩) (.swap _ _ [])

end Builder

end GenerationalCache
