/-!
# Floating-point numbers in decimal

A finite number is exactly a fraction with a power of two below or above the line, so its decimal
forms are computed in whole numbers. Two forms are needed: the shortest one that reads back as the
same number, written with an exponent when it is very large or very small, and the one with two
places.
-/

namespace GenerationalCache.Text

/-- The parts of a floating-point number of 64 bits. -/
inductive Binary64 where
  /-- Not a number. -/
  | nan
  /-- An infinity. -/
  | infinite (negative : Bool)
  /-- The number `mantissa * 2 ^ (exponent - 1074)`, with its sign. `narrow` tells that the next
  smaller number lies only half as far away as the next greater one. -/
  | finite (negative : Bool) (mantissa exponent : Nat) (narrow : Bool)
  deriving DecidableEq, Repr

/-- Takes a floating-point number apart. -/
def Binary64.ofFloat (x : Float) : Binary64 :=
  let bits := x.toBits.toNat
  let negative := bits / Nat.pow 2 63 == 1
  let biased := bits / Nat.pow 2 52 % Nat.pow 2 11
  let fraction := bits % Nat.pow 2 52
  if biased == 2047 then
    if fraction == 0 then infinite negative else nan
  else if biased == 0 then
    finite negative fraction 0 false
  else
    finite negative (Nat.pow 2 52 + fraction) (biased - 1) (fraction == 0 && 1 < biased)

/-- The whole number next to `num / den`; half way between two, the even one. -/
def roundHalfEven (num den : Nat) : Nat :=
  let q := num / den
  let r := num % den
  if 2 * r < den || (2 * r == den && q % 2 == 0) then q else q + 1

/-- A whole number of `10 ^ (-places)`-ths as text. -/
def fixedText (n places : Nat) : String :=
  let digits := Nat.toDigits 10 n
  let padded := List.replicate (places + 1 - digits.length) '0' ++ digits
  let whole := padded.take (padded.length - places)
  String.ofList (whole ++ '.' :: padded.drop (padded.length - places))

/-- The number with two places; half way between two of them, the one with an even last digit. -/
def twoPlaces (x : Float) : String :=
  match Binary64.ofFloat x with
  | .nan => "NaN"
  | .infinite negative => if negative then "-inf" else "inf"
  | .finite negative mantissa exponent _ =>
    (if negative then "-" else "") ++
      fixedText (roundHalfEven (mantissa * Nat.pow 2 exponent * 100) (Nat.pow 2 1074)) 2

/-- A positive number and the numbers that read back as it: those between `low` and `high`, all over
`den`, the ends included when `closed`. -/
structure ReadBack where
  /-- The numerator of the number. -/
  num : Nat
  /-- The numerator of the lower end. -/
  low : Nat
  /-- The numerator of the upper end. -/
  high : Nat
  /-- The common denominator. -/
  den : Nat
  /-- Whether the ends belong to the interval. -/
  closed : Bool

/-- The numbers that read back as `mantissa * 2 ^ (exponent - 1074)`. -/
def ReadBack.of (mantissa exponent : Nat) (narrow : Bool) : ReadBack where
  num := 4 * mantissa * Nat.pow 2 exponent
  low := (4 * mantissa - if narrow then 1 else 2) * Nat.pow 2 exponent
  high := (4 * mantissa + 2) * Nat.pow 2 exponent
  den := 4 * Nat.pow 2 1074
  closed := mantissa % 2 == 0

/-- The whole number `n` for which `n * 10 ^ e` is next to the number, if one of the two neighbours on
that grid reads back; of two that do the nearer, and half way between them the even one. -/
def ReadBack.nearest? (r : ReadBack) (e : Int) : Option Nat :=
  let below10 := Nat.pow 10 (-e).toNat
  let step := Nat.pow 10 e.toNat * r.den
  let readsBack (n : Nat) : Bool :=
    if r.closed then r.low * below10 ≤ n * step && n * step ≤ r.high * below10
    else r.low * below10 < n * step && n * step < r.high * below10
  let floor := r.num * below10 / step
  let nearer := roundHalfEven (r.num * below10) step
  let floorOk := 0 < floor && readsBack floor
  let nextOk := readsBack (floor + 1)
  if floorOk && (nearer == floor || !nextOk) then some floor
  else if nextOk then some (floor + 1)
  else none

/-- The coarsest grid that has a point that reads back, looking at `tries` exponents downwards from
`e`: the point as a whole number, and the exponent. -/
def ReadBack.coarsest? (r : ReadBack) : Nat → Int → Option (Nat × Int)
  | 0, _ => none
  | tries + 1, e =>
    match r.nearest? e with
    | some n => some (n, e)
    | none => coarsest? r tries (e - 1)

/-- A number `n * 10 ^ e` written out without an exponent and always with a point. -/
def positional (n : Nat) (e : Int) : String :=
  if 0 ≤ e then toString (n * Nat.pow 10 e.toNat) ++ ".0" else fixedText n (-e).toNat

/-- The power of ten of the first digit of `n * 10 ^ e`. -/
def leadingExponent (n : Nat) (e : Int) : Int := e + ((Nat.toDigits 10 n).length - 1 : Nat)

/-- A number `n * 10 ^ e` written with an exponent, which always has a sign. There is one digit before
the point, and no point without a digit behind it. -/
def scientific (n : Nat) (e : Int) : String :=
  let exponent := leadingExponent n e
  let rest := (Nat.toDigits 10 n).drop 1
  String.ofList ((Nat.toDigits 10 n).take 1 ++ if rest.isEmpty then [] else '.' :: rest) ++
    "e" ++ (if exponent < 0 then "-" else "+") ++ toString exponent.natAbs

/-- A number `n * 10 ^ e` in its usual notation: without an exponent from `10 ^ (-5)` up to below
`10 ^ 16`, and with one otherwise. -/
def notated (n : Nat) (e : Int) : String :=
  let exponent := leadingExponent n e
  if -5 ≤ exponent && exponent < 16 then positional n e else scientific n e

/-- The text of a positive number: the fewest digits that read back. The largest number is below
`10 ^ 309`, and every number is a whole multiple of `10 ^ (-1074)`. -/
def ReadBack.text (r : ReadBack) : String :=
  match r.coarsest? 1383 308 with
  | some (n, e) => notated n e
  | none => ""

/-- The shortest decimal that reads back as the number. A number without an exponent always has a
point. -/
def shortest (x : Float) : String :=
  match Binary64.ofFloat x with
  | .nan => "NaN"
  | .infinite negative => if negative then "-inf" else "inf"
  | .finite negative mantissa exponent narrow =>
    (if negative then "-" else "") ++
      if mantissa == 0 then "0.0" else (ReadBack.of mantissa exponent narrow).text

end GenerationalCache.Text
