import GenerationalCache.Proofs.Spans
import Mathlib.Tactic.FieldSimp
import Mathlib.Tactic.Linarith
import Mathlib.Tactic.Ring

/-!
# Sums of spans

Every step of a sum is checked, so a span is added exactly or the sum fails. It fails in two ways.
Either a number did not fit 64 bits or was no whole number, which is refused in so many words; or the
sum is a full second beyond the most seconds that fit, with nothing left over. The second way is open
because only more than a second of nanoseconds is carried under the checks. Exactly a second is not,
and it is carried when the sum is put together, where nothing is checked any more.
-/

namespace GenerationalCache

namespace Duration

/-- The first length that is too long, in nanoseconds. -/
def capacity : Nat := UInt64.size * nanosPerSec

theorem total_lt_capacity (d : Duration) : d.total < capacity := by
  have hsecs := d.secs_lt
  have hnanos := d.nanos_lt
  simp only [total, capacity, nanosPerSec] at *
  omega

theorem ofParts?_cases (secs nanos : Nat) :
    (∃ d, ofParts? secs nanos = some d ∧ d.total = secs * nanosPerSec + nanos) ∨
    (ofParts? secs nanos = none ∧ capacity ≤ secs * nanosPerSec + nanos) := by
  unfold ofParts? capacity
  split_ifs with h
  · refine .inl ⟨_, rfl, ?_⟩
    simp only [total, nanosPerSec]
    omega
  · refine .inr ⟨rfl, ?_⟩
    simp only [nanosPerSec]
    omega

end Duration

/-- So many units fit 64 bits as they are measured. Units shorter than a second leave room for a second
more, since nanoseconds are put together before they are carried. -/
def TimeUnit.Holds (u : TimeUnit) (n : Nat) : Prop :=
  match u.measure with
  | .nanos count => n * count + nanosPerSec ≤ UInt64.size
  | .secs count => n * count < UInt64.size

namespace DurationText

theorem fit_of_lt {n : Nat} (h : n < UInt64.size) : fit n = .ok n := if_pos h

theorem fit_bind_of_lt {α : Type} {n : Nat} (f : Nat → Except Failure α) (h : n < UInt64.size) :
    fit n >>= f = f n := by
  rw [fit_of_lt h]
  rfl

theorem fit_bind_of_not_lt {α : Type} {n : Nat} (f : Nat → Except Failure α)
    (h : ¬ n < UInt64.size) : fit n >>= f = .error .unrepresentable := by
  rw [fit, if_neg h]
  rfl

/-- What is carried leaves no more than a second behind, and it may leave a full one. -/
theorem carried_le (n : Nat) :
    (if nanosPerSec < n then n / nanosPerSec else 0) * nanosPerSec ≤ n ∧
      n ≤ (if nanosPerSec < n then n / nanosPerSec else 0) * nanosPerSec + nanosPerSec := by
  by_cases h : nanosPerSec < n
  · rw [if_pos h]
    have hmod := Nat.div_add_mod n nanosPerSec
    have hlt := Nat.mod_lt n (show 0 < nanosPerSec by decide)
    rw [Nat.mul_comm] at hmod
    omega
  · rw [if_neg h]
    omega

/-- What adding two lengths comes to: the sum, the one sum that is not checked, or a refusal, of which
the reason is told. -/
theorem add_cases (sum : Duration) (secs nanos : Nat) :
    (∃ d, add sum secs nanos = .ok d ∧ d.total = sum.total + (secs * nanosPerSec + nanos)) ∨
    (add sum secs nanos = .error .overflow ∧
      sum.total + (secs * nanosPerSec + nanos) = Duration.capacity) ∨
    (add sum secs nanos = .error .unrepresentable ∧
      (UInt64.size ≤ sum.nanos + nanos ∨
        Duration.capacity ≤ sum.total + (secs * nanosPerSec + nanos))) := by
  obtain ⟨hlow, hhigh⟩ := carried_le (sum.nanos + nanos)
  unfold add
  by_cases hnanos : sum.nanos + nanos < UInt64.size
  · rw [fit_bind_of_lt _ hnanos]
    dsimp only
    generalize (if nanosPerSec < sum.nanos + nanos then (sum.nanos + nanos) / nanosPerSec
      else 0) = carried at hlow hhigh ⊢
    by_cases hsecs : secs + carried < UInt64.size
    · rw [fit_bind_of_lt _ hsecs]
      by_cases hsum : sum.secs + (secs + carried) < UInt64.size
      · rw [fit_bind_of_lt _ hsum]
        have hsplit : (sum.secs + (secs + carried)) * nanosPerSec =
            sum.secs * nanosPerSec + (secs * nanosPerSec + carried * nanosPerSec) := by
          rw [Nat.add_mul, Nat.add_mul]
        -- what is left may still be a full second, which is carried without a check
        obtain ⟨d, hd, htotal⟩ | ⟨hnone, hle⟩ := Duration.ofParts?_cases
          (sum.secs + (secs + carried)) (sum.nanos + nanos - carried * nanosPerSec)
        · refine .inl ⟨d, by rw [hd], ?_⟩
          rw [htotal, Duration.total]
          omega
        · refine .inr (.inl ⟨by rw [hnone], ?_⟩)
          have hmost := Nat.mul_le_mul_right nanosPerSec (Nat.succ_le_of_lt hsum)
          rw [Nat.succ_mul] at hmost
          rw [Duration.capacity] at hle ⊢
          rw [Duration.total]
          omega
      · refine .inr (.inr ⟨fit_bind_of_not_lt _ hsum, .inr ?_⟩)
        have hmore := Nat.mul_le_mul_right nanosPerSec (Nat.not_lt.mp hsum)
        rw [Nat.add_mul, Nat.add_mul] at hmore
        rw [Duration.capacity, Duration.total]
        omega
    · refine .inr (.inr ⟨fit_bind_of_not_lt _ hsecs, .inr ?_⟩)
      have hmore := Nat.mul_le_mul_right nanosPerSec (Nat.not_lt.mp hsecs)
      rw [Nat.add_mul] at hmore
      rw [Duration.capacity, Duration.total]
      omega
  · refine .inr (.inr ⟨?_, .inl (Nat.not_lt.mp hnanos)⟩)
    rw [fit_bind_of_not_lt _ hnanos]

theorem addWhole_of_holds {sum : Duration} {n : Nat} {u : TimeUnit} (hholds : u.Holds n)
    (htotal : sum.total + n * u.nanos < Duration.capacity) :
    ∃ d, addWhole sum n u = .ok d ∧ d.total = sum.total + n * u.nanos := by
  have hlt : sum.nanos < nanosPerSec := sum.nanos_lt
  have hadd : ∀ {secs nanos : Nat}, sum.nanos + nanos < UInt64.size →
      secs * nanosPerSec + nanos = n * u.nanos →
      ∃ d, add sum secs nanos = .ok d ∧ d.total = sum.total + n * u.nanos := by
    intro secs nanos hnanos heq
    rw [← heq] at htotal ⊢
    obtain hok | ⟨-, hfull⟩ | ⟨-, hle | hle⟩ := add_cases sum secs nanos
    · exact hok
    · exact absurd hfull (Nat.ne_of_lt htotal)
    · exact absurd hnanos (Nat.not_lt.mpr hle)
    · exact absurd htotal (Nat.not_lt.mpr hle)
  unfold TimeUnit.Holds at hholds
  unfold TimeUnit.nanos at hadd ⊢
  unfold addWhole
  cases hmeasure : u.measure with
  | nanos count =>
      rw [hmeasure] at hholds hadd
      dsimp only at hholds ⊢
      have hroom : sum.nanos + n * count < UInt64.size := by omega
      rw [fit_bind_of_lt _ (Nat.lt_of_le_of_lt (Nat.le_add_left ..) hroom)]
      refine hadd hroom ?_
      rw [TimeUnit.Measure.inNanos, Nat.zero_mul, Nat.zero_add]
  | secs count =>
      rw [hmeasure] at hholds hadd
      dsimp only at hholds ⊢
      rw [fit_bind_of_lt _ hholds]
      refine hadd (Nat.lt_trans hlt (by decide)) ?_
      rw [TimeUnit.Measure.inNanos, Nat.mul_assoc, Nat.add_zero]

/-! ## Exact sums -/

/-- What may come of a computation: what it is meant to give, a sum that is a full second too long, or
a refusal. -/
inductive Outcome {α : Type} (Exact : α → Prop) (Full : Prop) : Except Failure α → Prop
  | exact {a : α} (h : Exact a) : Outcome Exact Full (.ok a)
  | full (h : Full) : Outcome Exact Full (.error .overflow)
  | refused {failure : Failure} (h : failure ≠ .overflow) : Outcome Exact Full (.error failure)

/-- The sum is longer by some time, which is a rational number of nanoseconds. -/
abbrev Adds (sum : Duration) (nanos : ℚ) : Except Failure Duration → Prop :=
  Outcome (fun d => (d.total : ℚ) = sum.total + nanos) (sum.total + nanos = Duration.capacity)

namespace Outcome

variable {α β : Type} {Exact : α → Prop} {Exact' : β → Prop} {Full Full' : Prop}
  {r : Except Failure α}

theorem mono {Exact' : α → Prop} (h : Outcome Exact Full r) (hexact : ∀ a, Exact a → Exact' a)
    (hfull : Full → Full') : Outcome Exact' Full' r := by
  cases h with
  | exact h => exact .exact (hexact _ h)
  | full h => exact .full (hfull h)
  | refused h => exact .refused h

/-- One computation after another. -/
theorem bind {f : α → Except Failure β} (h : Outcome Exact Full r)
    (hf : ∀ a, Exact a → Outcome Exact' Full' (f a)) (hfull : Full → Full') :
    Outcome Exact' Full' (r >>= f) := by
  cases h with
  | exact h => exact hf _ h
  | full h => exact .full (hfull h)
  | refused h => exact .refused h

theorem map {f : α → β} (h : Outcome Exact Full r) (hf : ∀ a, Exact a → Exact' (f a))
    (hfull : Full → Full') : Outcome Exact' Full' (r.map f) := by
  cases h with
  | exact h => exact .exact (hf _ h)
  | full h => exact .full (hfull h)
  | refused h => exact .refused h

end Outcome

theorem outcome_fit (n : Nat) : Outcome (n = ·) False (fit n) := by
  unfold fit
  split_ifs
  · exact .exact rfl
  · exact .refused (by decide)

theorem outcome_divideExactly (n d : Nat) : Outcome (n = · * d) False (divideExactly n d) := by
  unfold divideExactly
  split_ifs with hmod
  · exact .exact (Nat.div_mul_cancel (Nat.dvd_of_mod_eq_zero hmod)).symm
  · exact .refused (by decide)

theorem adds_add (sum : Duration) (secs nanos : Nat) :
    Adds sum (secs * nanosPerSec + nanos) (add sum secs nanos) := by
  obtain ⟨d, hd, htotal⟩ | ⟨hfull, htotal⟩ | ⟨hrefused, -⟩ := add_cases sum secs nanos
  · rw [hd]
    refine .exact ?_
    rw [htotal]
    push_cast
    rfl
  · rw [hfull]
    refine .full ?_
    rw [← htotal]
    push_cast
    rfl
  · rw [hrefused]
    exact .refused (by decide)

theorem adds_addWhole (sum : Duration) (n : Nat) (u : TimeUnit) :
    Adds sum (n * u.nanos) (addWhole sum n u) := by
  unfold addWhole TimeUnit.nanos
  cases u.measure with
  | nanos count =>
      refine (outcome_fit (n * count)).bind ?_ False.elim
      rintro _ rfl
      simpa [TimeUnit.Measure.inNanos] using adds_add sum 0 (n * count)
  | secs count =>
      refine (outcome_fit (n * count)).bind ?_ False.elim
      rintro _ rfl
      simpa [TimeUnit.Measure.inNanos, mul_assoc] using adds_add sum (n * count) 0

theorem adds_addFraction (sum : Duration) (numerator : Nat) {denominator : Nat}
    (hpos : 0 < denominator) (u : TimeUnit) :
    Adds sum (numerator / denominator * u.nanos)
      (addFraction sum numerator denominator u) := by
  have hne : (denominator : ℚ) ≠ 0 := Nat.cast_ne_zero.mpr (Nat.ne_of_gt hpos)
  have hquotient : ∀ {count q : Nat}, numerator * count = q * denominator →
      (q : ℚ) = numerator / denominator * count := by
    intro count q h
    have hmul : (numerator : ℚ) * count = q * denominator := by exact_mod_cast h
    field_simp
    exact hmul.symm
  unfold addFraction
  split
  · exact .refused (by decide)
  · next count hmeasure =>
    rw [← TimeUnit.inNanos_fractionMeasure? hmeasure, TimeUnit.Measure.inNanos]
    refine (outcome_fit (numerator * count)).bind ?_ False.elim
    rintro _ rfl
    refine (outcome_divideExactly (numerator * count) denominator).bind ?_ False.elim
    intro q hq
    rw [← hquotient hq]
    simpa using adds_add sum 0 q
  · next count hmeasure =>
    rw [← TimeUnit.inNanos_fractionMeasure? hmeasure, TimeUnit.Measure.inNanos]
    refine (outcome_fit (numerator * count)).bind ?_ False.elim
    rintro _ rfl
    refine (outcome_divideExactly (numerator * count) denominator).bind ?_ False.elim
    intro q hq
    rw [Nat.cast_mul, ← mul_assoc, ← hquotient hq]
    simpa using adds_add sum q 0

/-! ## Whole spans -/

/-- What the reader keeps of the digits after the point. -/
def Numeral.decimal (w : Numeral) : Fraction :=
  ⟨Nat.ofDigitChars 10 w.fraction 0, 10 ^ w.fraction.length⟩

/-- The fraction of a number, if it has one. -/
def Numeral.fraction? (w : Numeral) : Option Fraction :=
  if w.fraction = [] then none else some w.decimal

/-- A span whose letters are no unit is refused. -/
theorem closeSpan_of_not_mem {Exact : Duration → Prop} {Full : Prop} (sum : Duration) (n : Nat)
    (f : Option Fraction) {text : String} (h : ∀ u : TimeUnit, text ∉ u.spellings) :
    Outcome Exact Full (closeSpan sum n f text) := by
  have hnone : TimeUnit.ofText? text = none := by
    cases hunit : TimeUnit.ofText? text with
    | none => rfl
    | some u => exact absurd (TimeUnit.ofText?_eq_some_iff.mp hunit) (h u)
  unfold closeSpan
  split_ifs
  · exact .refused Failure.noConfusion
  · rw [hnone]
    exact .refused Failure.noConfusion

theorem closeSpan_spelling (s : Span) (n : Nat) (f : Option Fraction) :
    closeSpan sum n f s.spelling = addWhole sum n s.unit >>= fun sum =>
      match f with
      | none => .ok sum
      | some f => addFraction sum f.numerator f.denominator s.unit := by
  have hne : ¬ s.spelling.isEmpty = true := by
    rw [String.isEmpty_iff, ← String.toList_eq_nil_iff]
    exact (letters_of_mem_spellings s.spelling_mem).1
  unfold closeSpan
  rw [if_neg hne, TimeUnit.ofText?_eq_some_iff.mpr s.spelling_mem]
  cases f <;> rfl

theorem Span.nanos_of_whole {s : Span} (h : s.number.fraction = []) :
    s.nanos = s.wholeNanos := by
  rw [nanos, wholeNanos, Numeral.value, h]
  push_cast
  simp [Nat.ofDigitChars]

theorem Numeral.decimal_pos (w : Numeral) : 0 < w.decimal.denominator :=
  Nat.pow_pos (by decide)

theorem Span.nanos_eq (s : Span) : s.nanos = s.wholeNanos +
    s.number.decimal.numerator / s.number.decimal.denominator * s.unit.nanos := by
  rw [nanos, wholeNanos, Numeral.value, Numeral.decimal]
  push_cast
  ring

/-- **A span is added exactly.** If the sum overflows, it does so with the whole span or with its whole
part. -/
theorem outcome_closeSpan (sum : Duration) (s : Span) :
    Outcome (fun d => (d.total : ℚ) = sum.total + s.nanos)
      ((sum.total : ℚ) + s.nanos = Duration.capacity ∨
        (sum.total : ℚ) + s.wholeNanos = Duration.capacity)
      (closeSpan sum s.number.floor s.number.fraction? s.spelling) := by
  have hwhole := adds_addWhole sum s.number.floor s.unit
  rw [← Nat.cast_mul, ← Span.wholeNanos] at hwhole
  rw [closeSpan_spelling]
  -- first the whole part, and what is left to add is the fraction
  refine hwhole.bind (fun sum' hsum' => ?_) .inr
  unfold Numeral.fraction?
  split_ifs with hfraction
  · exact .exact (by rw [Span.nanos_of_whole hfraction, hsum'])
  · refine (adds_addFraction sum' _ s.number.decimal_pos s.unit).mono ?_ ?_
    · intro d hd
      rw [hd, hsum', Span.nanos_eq, add_assoc]
    · intro hfull
      rw [← hfull, hsum', Span.nanos_eq, add_assoc]
      exact .inl rfl

end DurationText

end GenerationalCache
