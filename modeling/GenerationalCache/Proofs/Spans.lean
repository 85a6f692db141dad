import GenerationalCache.Timing.DurationText
import Mathlib.Data.Rat.Defs
import Mathlib.Algebra.Order.Field.Rat
import Mathlib.Algebra.BigOperators.Group.List.Basic
import Mathlib.Data.List.TakeWhile

/-!
# The spans of a text

What a text of spans says, without a word about how it is read. A span is a number and a unit, and it
lasts as many of its units as the number says, fraction included: a rational number of nanoseconds. A
text spells a list of spans if it is made of them, one after the other, with white space anywhere but
inside a unit.

A text spells one list of spans at most. A number ends where there are no more digits and a unit where
there are no more letters, and no character is both.
-/

namespace GenerationalCache

namespace TimeUnit

/-- A length in nanoseconds. -/
def Measure.inNanos : Measure → Nat
  | .nanos count => count
  | .secs count => count * nanosPerSec

/-- The length of a unit in nanoseconds. -/
def nanos (u : TimeUnit) : Nat := u.measure.inNanos

theorem inNanos_fractionMeasure? {u : TimeUnit} {m : Measure} (h : u.fractionMeasure? = some m) :
    m.inNanos = u.nanos := by
  cases u <;> cases h <;> rfl

theorem mem_all (u : TimeUnit) : u ∈ all := by
  cases u <;> decide

/-- A unit is found by each of its spellings, and by nothing else. -/
theorem ofText?_eq_some_iff {text : String} {u : TimeUnit} :
    ofText? text = some u ↔ text ∈ u.spellings := by
  have hfound : ∀ u ∈ all, ∀ text ∈ u.spellings, ofText? text = some u := by decide
  constructor
  · intro h
    have hcontains := List.find?_some h
    rwa [List.contains_iff_mem] at hcontains
  · exact hfound u (mem_all u) text

end TimeUnit

namespace DurationText

/-! ## Digits, letters and blanks -/

theorem isDigit_iff {c : Char} : c.isDigit = true ↔ 48 ≤ c.toNat ∧ c.toNat ≤ 57 := by
  simp only [Char.isDigit, Bool.and_eq_true, decide_eq_true_eq, ge_iff_le, UInt32.le_iff_toNat_le]
  rfl

theorem isUnitLetter_iff {c : Char} : isUnitLetter c = true ↔
    97 ≤ c.toNat ∧ c.toNat ≤ 122 ∨ 65 ≤ c.toNat ∧ c.toNat ≤ 90 ∨ c.toNat = 0xB5 := by
  simp only [isUnitLetter, Bool.or_eq_true, Bool.and_eq_true, decide_eq_true_eq, beq_iff_eq,
    or_assoc]

theorem digit?_of_isDigit {c : Char} (h : c.isDigit = true) :
    digit? c = some (c.toNat - '0'.toNat) := by
  have hrange := isDigit_iff.mp h
  rw [digit?, if_pos (by simpa using hrange)]
  rfl

theorem digit?_eq_none {c : Char} (h : c.isDigit = false) : digit? c = none := by
  rw [digit?, if_neg]
  rw [Bool.and_eq_true, decide_eq_true_eq, decide_eq_true_eq, ← isDigit_iff, h]
  exact Bool.false_ne_true

theorem isDigit_of_digit? {c : Char} {d : Nat} (h : digit? c = some d) :
    c.isDigit = true ∧ d = c.toNat - '0'.toNat := by
  cases hc : c.isDigit with
  | false => rw [digit?_eq_none hc] at h; cases h
  | true =>
      rw [digit?_of_isDigit hc] at h
      exact ⟨rfl, (Option.some.inj h).symm⟩

theorem not_isBlank {c : Char} (h : c.isDigit = true ∨ isUnitLetter c = true ∨ c = '.') :
    Text.isBlank c = false := by
  have hrange : 33 ≤ c.toNat ∧ c.toNat ≤ 122 ∨ c.toNat = 0xB5 := by
    rcases h with h | h | rfl
    · have := isDigit_iff.mp h
      omega
    · have := isUnitLetter_iff.mp h
      omega
    · exact .inl (by decide)
  simp only [Text.isBlank, Text.blankRanges, List.any_cons, List.any_nil, Bool.or_eq_false_iff,
    Bool.and_eq_false_iff, decide_eq_false_iff_not, Bool.or_false]
  omega

theorem digit?_of_isBlank {c : Char} (h : Text.isBlank c = true) : digit? c = none := by
  refine digit?_eq_none ?_
  rw [← Bool.not_eq_true]
  intro hdigit
  rw [not_isBlank (.inl hdigit)] at h
  cases h

theorem not_isDigit_of_isUnitLetter {c : Char} (h : isUnitLetter c = true) :
    c.isDigit = false := by
  rw [← Bool.not_eq_true, isDigit_iff]
  have := isUnitLetter_iff.mp h
  omega

/-- The spellings of units are letters, at least one. -/
theorem letters_of_mem_spellings {u : TimeUnit} {text : String} (h : text ∈ u.spellings) :
    text.toList ≠ [] ∧ ∀ c ∈ text.toList, isUnitLetter c = true := by
  have hall : ∀ u ∈ TimeUnit.all, ∀ text ∈ u.spellings,
      text.toList.isEmpty = false ∧ text.toList.all isUnitLetter = true := by decide
  obtain ⟨hne, hletters⟩ := hall u u.mem_all text h
  exact ⟨List.isEmpty_eq_false_iff.mp hne, List.all_eq_true.mp hletters⟩

/-- The characters that are not blank. -/
def visible (cs : List Char) : List Char := cs.filter fun c => !Text.isBlank c

theorem visible_append (cs ds : List Char) : visible (cs ++ ds) = visible cs ++ visible ds :=
  List.filter_append ..

theorem visible_eq_self {cs : List Char} (h : ∀ c ∈ cs, Text.isBlank c = false) :
    visible cs = cs :=
  List.filter_eq_self.mpr fun c hc => by rw [h c hc]; rfl

theorem visible_eq_nil {cs : List Char} (h : ∀ c ∈ cs, Text.isBlank c = true) :
    visible cs = [] :=
  List.filter_eq_nil_iff.mpr fun c hc => by rw [h c hc]; exact Bool.false_ne_true

theorem visible_blank {cs : List Char} {c : Char} (h : Text.isBlank c = true) :
    visible (cs ++ [c]) = visible cs := by
  have hc : visible [c] = [] := visible_eq_nil (by simpa using h)
  rw [visible_append, hc, List.append_nil]

theorem visible_singleton {c : Char} (h : c.isDigit = true ∨ isUnitLetter c = true ∨ c = '.') :
    visible [c] = [c] :=
  visible_eq_self (by simpa using not_isBlank h)

theorem visible_concat {cs : List Char} {c : Char}
    (h : c.isDigit = true ∨ isUnitLetter c = true ∨ c = '.') :
    visible (cs ++ [c]) = visible cs ++ [c] := by
  rw [visible_append, visible_singleton h]

theorem visible_cons_blank {c : Char} {cs : List Char} (h : Text.isBlank c = true) :
    visible (c :: cs) = visible cs := by
  rw [visible, List.filter_cons, h]
  rfl

theorem visible_cons {c : Char} {cs : List Char} (h : Text.isBlank c = false) :
    visible (c :: cs) = c :: visible cs := by
  rw [visible, List.filter_cons, h]
  rfl

theorem visible_dropWhile (cs : List Char) :
    visible (cs.dropWhile Text.isBlank) = visible cs := by
  have hsplit : cs.takeWhile Text.isBlank ++ cs.dropWhile Text.isBlank = cs :=
    List.takeWhile_append_dropWhile
  have hblank : visible (cs.takeWhile Text.isBlank) = [] :=
    visible_eq_nil fun c hc => List.mem_takeWhile_imp hc
  rw [← hsplit, visible_append, hblank, hsplit]
  rfl

theorem dropWhile_append_of_visible {cs : List Char} (h : visible cs ≠ []) (ds : List Char) :
    (cs ++ ds).dropWhile Text.isBlank = cs.dropWhile Text.isBlank ++ ds := by
  rw [List.dropWhile_append, if_neg]
  rw [List.isEmpty_iff]
  intro hnil
  rw [← visible_dropWhile, hnil] at h
  exact h rfl

/-! ## Numbers and spans -/

/-- A number as it is written. -/
@[ext]
structure Numeral where
  /-- The digits before the point. -/
  whole : List Char
  /-- The digits after it. Where there are none there is no point either. -/
  fraction : List Char
  /-- There is a digit before the point. -/
  whole_ne_nil : whole ≠ []
  /-- Nothing but digits stands before it. -/
  isDigit_whole : ∀ c ∈ whole, c.isDigit = true
  /-- Nor after it. -/
  isDigit_fraction : ∀ c ∈ fraction, c.isDigit = true

namespace Numeral

/-- The point and what comes after it. -/
def decimals (n : Numeral) : List Char := if n.fraction = [] then [] else '.' :: n.fraction

/-- The characters of the number. -/
def chars (n : Numeral) : List Char := n.whole ++ n.decimals

/-- The whole part. -/
def floor (n : Numeral) : Nat := Nat.ofDigitChars 10 n.whole 0

/-- The number, exactly. -/
def value (n : Numeral) : ℚ :=
  n.floor + Nat.ofDigitChars 10 n.fraction 0 / 10 ^ n.fraction.length

end Numeral

/-- A span of time as it is written. -/
@[ext]
structure Span where
  /-- How many units. -/
  number : Numeral
  /-- The unit. -/
  unit : TimeUnit
  /-- How the unit is spelled here. -/
  spelling : String
  /-- That is one of its spellings. -/
  spelling_mem : spelling ∈ unit.spellings

namespace Span

/-- The characters of the span: the number, and at once the unit. -/
def chars (s : Span) : List Char := s.number.chars ++ s.spelling.toList

/-- How long it is, in nanoseconds. -/
def nanos (s : Span) : ℚ := s.number.value * s.unit.nanos

/-- How long its whole part is. -/
def wholeNanos (s : Span) : Nat := s.number.floor * s.unit.nanos

end Span

/-- How long spans are together. -/
def nanosOf (spans : List Span) : ℚ := (spans.map Span.nanos).sum

theorem nanosOf_concat (spans : List Span) (s : Span) :
    nanosOf (spans ++ [s]) = nanosOf spans + s.nanos := by
  simp only [nanosOf, List.map_append, List.sum_append, List.map_cons, List.map_nil,
    List.sum_cons, List.sum_nil, add_zero]

/-! ## Texts that spell spans -/

/-- Characters that are spans one after the other, with blanks before the numbers, within them and
after them. -/
inductive Written : List Char → List Span → Prop
  | nil : Written [] []
  | snoc {cs front : List Char} {spans : List Span} {s : Span} (before : Written cs spans)
      (number : visible front = s.number.chars) :
      Written (cs ++ (front ++ s.spelling.toList)) (spans ++ [s])

/-- A text of spans, with blanks after the last one. -/
def Spells (text : String) (spans : List Span) : Prop :=
  ∃ cs trailing, Written cs spans ∧ (∀ c ∈ trailing, Text.isBlank c = true) ∧
    text.toList = cs ++ trailing

theorem Span.visible_spelling (s : Span) : visible s.spelling.toList = s.spelling.toList :=
  visible_eq_self fun c hc =>
    not_isBlank (.inr (.inl ((letters_of_mem_spellings s.spelling_mem).2 c hc)))

theorem Written.visible_eq {cs : List Char} {spans : List Span} (h : Written cs spans) :
    visible cs = spans.flatMap Span.chars := by
  induction h with
  | nil => rfl
  | snoc before number ih =>
      rw [visible_append, visible_append, ih, number, Span.visible_spelling, List.flatMap_append,
        List.flatMap_singleton]
      rfl

/-! ## There is only one way to read them -/

/-- Where a run of characters of one kind ends is not a matter of choice. -/
theorem append_inj_of_all {p : Char → Bool} {xs ys as bs : List Char}
    (hxs : ∀ c ∈ xs, p c = true) (hys : ∀ c ∈ ys, p c = true) (has : ∀ c ∈ as.head?, p c = false)
    (hbs : ∀ c ∈ bs.head?, p c = false) (h : xs ++ as = ys ++ bs) : xs = ys ∧ as = bs := by
  have hstop : ∀ {zs : List Char}, (∀ c ∈ zs.head?, p c = false) → zs.takeWhile p = [] := by
    intro zs hzs
    cases zs with
    | nil => rfl
    | cons z zs => rw [List.takeWhile_cons, hzs z rfl, if_neg Bool.false_ne_true]
  have hruns := congrArg (List.takeWhile p) h
  rw [List.takeWhile_append_of_pos hxs, List.takeWhile_append_of_pos hys, hstop has, hstop hbs,
    List.append_nil, List.append_nil] at hruns
  obtain rfl := hruns
  exact ⟨rfl, List.append_cancel_left h⟩

theorem Span.exists_letter (s : Span) (as : List Char) :
    ∃ c cs, s.spelling.toList ++ as = c :: cs ∧ isUnitLetter c = true := by
  obtain ⟨hne, hletters⟩ := letters_of_mem_spellings s.spelling_mem
  obtain ⟨c, cs, hcs⟩ := List.exists_cons_of_ne_nil hne
  refine ⟨c, cs ++ as, by rw [hcs, List.cons_append], hletters c ?_⟩
  rw [hcs]
  exact List.mem_cons_self

theorem Numeral.decimals_append_inj {m n : Numeral} {a b : Char} {as bs : List Char}
    (ha : isUnitLetter a = true) (hb : isUnitLetter b = true)
    (h : m.decimals ++ a :: as = n.decimals ++ b :: bs) :
    m.fraction = n.fraction ∧ a :: as = b :: bs := by
  have hpoint : ∀ {c : Char}, isUnitLetter c = true → c ≠ '.' := by
    rintro c hc rfl
    exact absurd hc (by decide)
  have hstop : ∀ {c : Char} {cs : List Char}, isUnitLetter c = true →
      ∀ x ∈ (c :: cs).head?, x.isDigit = false := by
    intro c cs hc x hx
    obtain rfl := Option.some.inj hx
    exact not_isDigit_of_isUnitLetter hc
  unfold Numeral.decimals at h
  split_ifs at h with hm hn hn
  · exact ⟨hm.trans hn.symm, h⟩
  · exact absurd (List.cons.inj h).1 (hpoint ha)
  · exact absurd (List.cons.inj h).1.symm (hpoint hb)
  · exact append_inj_of_all m.isDigit_fraction n.isDigit_fraction (hstop ha) (hstop hb)
      (List.cons.inj h).2

theorem Numeral.chars_append_inj {m n : Numeral} {a b : Char} {as bs : List Char}
    (ha : isUnitLetter a = true) (hb : isUnitLetter b = true)
    (h : m.chars ++ a :: as = n.chars ++ b :: bs) : m = n ∧ a :: as = b :: bs := by
  have hstop : ∀ (n : Numeral) {c : Char} {cs : List Char}, isUnitLetter c = true →
      ∀ x ∈ (n.decimals ++ c :: cs).head?, x.isDigit = false := by
    intro n c cs hc x hx
    unfold Numeral.decimals at hx
    split_ifs at hx
    · obtain rfl := Option.some.inj hx
      exact not_isDigit_of_isUnitLetter hc
    · obtain rfl := Option.some.inj hx
      decide
  rw [Numeral.chars, Numeral.chars, List.append_assoc, List.append_assoc] at h
  obtain ⟨hwhole, hrest⟩ := append_inj_of_all m.isDigit_whole n.isDigit_whole (hstop m ha)
    (hstop n hb) h
  obtain ⟨hfraction, hletters⟩ := Numeral.decimals_append_inj ha hb hrest
  exact ⟨Numeral.ext hwhole hfraction, hletters⟩

theorem Span.chars_append_inj {s t : Span} {as bs : List Char}
    (has : ∀ c ∈ as.head?, isUnitLetter c = false) (hbs : ∀ c ∈ bs.head?, isUnitLetter c = false)
    (h : s.chars ++ as = t.chars ++ bs) : s = t ∧ as = bs := by
  rw [Span.chars, Span.chars, List.append_assoc, List.append_assoc] at h
  obtain ⟨a, as', ha, hletter⟩ := s.exists_letter as
  obtain ⟨b, bs', hb, hletter'⟩ := t.exists_letter bs
  rw [ha, hb] at h
  obtain ⟨hnumber, hunits⟩ := Numeral.chars_append_inj hletter hletter' h
  rw [← ha, ← hb] at hunits
  obtain ⟨hspelling, hrest⟩ := append_inj_of_all (letters_of_mem_spellings s.spelling_mem).2
    (letters_of_mem_spellings t.spelling_mem).2 has hbs hunits
  have hspelling := String.toList_inj.mp hspelling
  -- no two units have a spelling in common
  have hunit := TimeUnit.ofText?_eq_some_iff.mpr s.spelling_mem
  rw [hspelling, TimeUnit.ofText?_eq_some_iff.mpr t.spelling_mem] at hunit
  exact ⟨Span.ext hnumber (Option.some.inj hunit).symm hspelling, hrest⟩

/-- Behind a span comes a digit, or nothing. -/
theorem head?_flatMap_chars (spans : List Span) :
    ∀ c ∈ (spans.flatMap Span.chars).head?, isUnitLetter c = false := by
  intro c hc
  cases spans with
  | nil => cases hc
  | cons s spans =>
      obtain ⟨d, ds, hds⟩ := List.exists_cons_of_ne_nil s.number.whole_ne_nil
      have hd : d.isDigit = true := s.number.isDigit_whole d (hds ▸ List.mem_cons_self)
      rw [List.flatMap_cons, Span.chars, Numeral.chars, hds] at hc
      obtain rfl := Option.some.inj hc
      rw [← Bool.not_eq_true]
      intro hletter
      rw [not_isDigit_of_isUnitLetter hletter] at hd
      exact Bool.false_ne_true hd

theorem flatMap_chars_inj {spans spans' : List Span}
    (h : spans.flatMap Span.chars = spans'.flatMap Span.chars) : spans = spans' := by
  have hne : ∀ (s : Span) (as : List Char), s.chars ++ as ≠ [] := fun s as hnil => by
    rw [Span.chars, Numeral.chars, List.append_assoc, List.append_assoc] at hnil
    exact s.number.whole_ne_nil (List.append_eq_nil_iff.mp hnil).1
  induction spans generalizing spans' with
  | nil =>
      cases spans' with
      | nil => rfl
      | cons s' spans' => exact absurd h.symm (hne s' _)
  | cons s spans ih =>
      cases spans' with
      | nil => exact absurd h (hne s _)
      | cons s' spans' =>
          obtain ⟨rfl, hrest⟩ := Span.chars_append_inj (head?_flatMap_chars spans)
            (head?_flatMap_chars spans') h
          rw [ih hrest]

/-- **A text spells one list of spans at most.** -/
theorem Spells.unique {text : String} {spans spans' : List Span} (h : Spells text spans)
    (h' : Spells text spans') : spans = spans' := by
  have hvisible : ∀ {spans : List Span}, Spells text spans →
      visible text.toList = spans.flatMap Span.chars := by
    rintro spans ⟨cs, trailing, hwritten, hblank, htext⟩
    rw [htext, visible_append, hwritten.visible_eq, visible_eq_nil hblank, List.append_nil]
  exact flatMap_chars_inj ((hvisible h).symm.trans (hvisible h'))

end DurationText

end GenerationalCache
