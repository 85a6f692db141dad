import GenerationalCache.Text.Blank
import GenerationalCache.Text.Quoted
import GenerationalCache.Text.Utf8
import GenerationalCache.Timing.Duration
import GenerationalCache.Timing.TimeUnit

/-!
# Durations as people write them

A duration is written as a sequence of spans such as `1h 30m` or `2.5 sec`: a number, perhaps with a
fraction, and a unit. White space may stand around a span, between its number and its unit, and
between the digits of its number. The bare text `0` is a duration too.

The text is read character by character. Before each character the reader is in one of four phases,
and holds the sum of the spans that are behind it. Every step of the sum is checked: a duration is
read exactly or not at all.
-/

namespace GenerationalCache.DurationText

/-- Why a text is no duration. Places are counted in bytes. -/
inductive Failure where
  /-- There is nothing but white space. -/
  | empty
  /-- From this place on a number was looked for, and something else found. -/
  | numberExpected (start : Nat)
  /-- The character at this place fits nothing. -/
  | invalidCharacter (place : Nat)
  /-- A number does not fit 64 bits, or a fraction is no whole number of the smallest unit. -/
  | unrepresentable
  /-- A number has no unit. -/
  | unitMissing (number : Nat)
  /-- There is no such unit. -/
  | unknownUnit (text : String)
  /-- The sum is a full second of nanoseconds beyond the most seconds that fit 64 bits. -/
  | overflow
  deriving DecidableEq, Repr

/-- What the failure tells a person. -/
def Failure.message : Failure → String
  | empty => "value was empty"
  | numberExpected start => "expected number at " ++ toString start
  | invalidCharacter place => "invalid character at " ++ toString place
  | unrepresentable =>
    "number is too large or cannot be represented without a lack of precision " ++
      "(values below 1ns are not supported)"
  | unitMissing number =>
    "time unit needed, for example " ++ toString number ++ "sec or " ++ toString number ++ "ms"
  | unknownUnit text =>
    "unknown time unit " ++ Text.quoted text ++ ", supported units: ns, us/µs, ms, sec, min, " ++
      "hours, days, weeks, months, years (and few variations)"
  | overflow => "overflow in the whole seconds of a duration"

/-- A number that has to fit 64 bits. -/
def fit (n : Nat) : Except Failure Nat :=
  if n < UInt64.size then .ok n else .error .unrepresentable

/-- Adds seconds and nanoseconds to a sum. Nanoseconds beyond a full second are carried before the
seconds are added, each step within 64 bits; exactly a full second of them is carried afterwards, and
the sum overflows if there are the most seconds already. -/
def add (sum : Duration) (secs nanos : Nat) : Except Failure Duration := do
  let nanos ← fit (sum.nanos + nanos)
  let carried := if nanosPerSec < nanos then nanos / nanosPerSec else 0
  let secs ← fit (secs + carried)
  let secs ← fit (sum.secs + secs)
  match Duration.ofParts? secs (nanos - carried * nanosPerSec) with
  | some sum => .ok sum
  | none => .error .overflow

/-- Adds a number of units. -/
def addWhole (sum : Duration) (n : Nat) (unit : TimeUnit) : Except Failure Duration := do
  match unit.measure with
  | .nanos count => add sum 0 (← fit (n * count))
  | .secs count => add sum (← fit (n * count)) 0

/-- Divides without a remainder. -/
def divideExactly (n d : Nat) : Except Failure Nat :=
  if n % d = 0 then .ok (n / d) else .error .unrepresentable

/-- Adds a fraction of a unit. -/
def addFraction (sum : Duration) (numerator denominator : Nat) (unit : TimeUnit) :
    Except Failure Duration := do
  match unit.fractionMeasure? with
  | none => .error .unrepresentable
  | some (.nanos count) =>
    add sum 0 (← divideExactly (← fit (numerator * count)) denominator)
  | some (.secs count) =>
    add sum (← divideExactly (← fit (numerator * count)) denominator) 0

/-- A fraction as it is written: digits after a point, over a power of ten. -/
structure Fraction where
  /-- The digits as a number. -/
  numerator : Nat
  /-- Ten to the number of digits. -/
  denominator : Nat
  deriving DecidableEq, Repr

/-- What the reader is in the middle of. -/
inductive Phase where
  /-- Between two spans, looking for a number since a place. `started` tells that there was a span
  before. -/
  | between (start : Nat) (started : Bool)
  /-- In the whole part of a number. -/
  | number (n : Nat)
  /-- In the fraction of a number; an error would be reported at `mark`. -/
  | fraction (n : Nat) (f : Fraction) (mark : Nat)
  /-- In a unit, of which the letters so far are kept with the last one first. -/
  | unit (n : Nat) (f : Option Fraction) (letters : List Char)
  deriving DecidableEq, Repr

/-- The reader before a character. -/
structure Reader where
  /-- The place of the character. -/
  place : Nat := 0
  /-- What it is in the middle of. -/
  phase : Phase := .between 0 false
  /-- The spans behind it. -/
  sum : Duration := .zero
  deriving DecidableEq, Repr

/-- The value of a decimal digit. -/
def digit? (c : Char) : Option Nat :=
  if 48 ≤ c.toNat && c.toNat ≤ 57 then some (c.toNat - 48) else none

/-- Whether a character may stand in a unit. -/
def isUnitLetter (c : Char) : Bool :=
  (97 ≤ c.toNat && c.toNat ≤ 122) || (65 ≤ c.toNat && c.toNat ≤ 90) || c.toNat == 0xB5

/-- Adds a span to a sum. -/
def closeSpan (sum : Duration) (n : Nat) (f : Option Fraction) (unit : String) :
    Except Failure Duration := do
  if unit.isEmpty then .error (.unitMissing n)
  else
    match TimeUnit.ofText? unit with
    | none => .error (.unknownUnit unit)
    | some u =>
      let sum ← addWhole sum n u
      match f with
      | none => return sum
      | some f => addFraction sum f.numerator f.denominator u

namespace Reader

/-- The reader in another phase, behind a character. -/
def after (r : Reader) (c : Char) (phase : Phase) : Reader :=
  { r with place := r.place + Text.Utf8.byteLength [c], phase }

/-- Reads one character. -/
def step (r : Reader) (c : Char) : Except Failure Reader :=
  match r.phase with
  | .between start started =>
    match digit? c with
    | some d => .ok (r.after c (.number d))
    | none =>
      if Text.isBlank c then .ok (r.after c (.between start started))
      else .error (.numberExpected start)
  | .number n =>
    match digit? c with
    | some d => (fit (n * 10 + d)).map fun n => r.after c (.number n)
    | none =>
      if Text.isBlank c then .ok (r.after c (.number n))
      else if isUnitLetter c then .ok (r.after c (.unit n none [c]))
      else if c = '.' then .ok (r.after c (.fraction n ⟨0, 1⟩ r.place))
      else .error (.invalidCharacter r.place)
  | .fraction n f mark =>
    match digit? c with
    | some d => do
      let denominator ← fit (f.denominator * 10)
      let numerator ← fit (f.numerator * 10 + d)
      let r := r.after c r.phase
      return { r with phase := .fraction n ⟨numerator, denominator⟩ r.place }
    | none =>
      if Text.isBlank c then
        let r := r.after c r.phase
        .ok { r with phase := .fraction n f r.place }
      else if isUnitLetter c && f.denominator != 1 then .ok (r.after c (.unit n (some f) [c]))
      else .error (.invalidCharacter mark)
  | .unit n f letters =>
    match digit? c with
    | some d => do
      let sum ← closeSpan r.sum n f (String.ofList letters.reverse)
      return { r.after c (.number d) with sum }
    | none =>
      if Text.isBlank c then do
        let sum ← closeSpan r.sum n f (String.ofList letters.reverse)
        let r := r.after c r.phase
        return { r with phase := .between r.place true, sum }
      else if isUnitLetter c then .ok (r.after c (.unit n f (c :: letters)))
      else .error (.invalidCharacter r.place)

/-- What was read, once there are no more characters. -/
def finish (r : Reader) : Except Failure Duration :=
  match r.phase with
  | .between _ started => if started then .ok r.sum else .error .empty
  | .number n => closeSpan r.sum n none ""
  | .fraction n f mark =>
    if f.denominator = 1 then .error (.invalidCharacter mark) else closeSpan r.sum n (some f) ""
  | .unit n f letters => closeSpan r.sum n f (String.ofList letters.reverse)

end Reader

/-- Reads a sequence of characters as a sum of spans. -/
def readChars (cs : List Char) : Except Failure Duration := do
  let r ← cs.foldlM Reader.step ({} : Reader)
  r.finish

/-- Reads a text as a sum of spans, white space at either end ignored. -/
def read (text : String) : Except Failure Duration :=
  let cs := Text.trimBlanks text.toList
  if cs = ['0'] then .ok .zero else readChars cs

end GenerationalCache.DurationText
