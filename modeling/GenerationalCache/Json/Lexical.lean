import GenerationalCache.Json.Basic
import GenerationalCache.Text.Utf8

/-!
# Words, texts and numbers of a structured text

The parts of a structured text that have no parts themselves. Each is read off the front of the
characters, and the characters behind it are returned.

A part may be read to be used or only to be passed over. What is passed over has to look right and
need not mean anything: half of a character pair is accepted, and a number may be out of range. On the
other hand a number that is passed over is never taken to be cut short.
-/

namespace GenerationalCache.Json

/-- What is wrong with a structured text, at the first place where something is. -/
inductive Problem where
  /-- The text ends too early. -/
  | ended
  /-- It breaks the rules of structured texts. -/
  | malformed
  /-- It keeps the rules and is not what was asked for. -/
  | mismatched
  deriving DecidableEq, Repr

/-- Takes something off the front of a text. -/
abbrev Reader (α : Type) : Type := List Char → Except Problem (α × List Char)

/-- Whether a part is read to be used or to be passed over. -/
inductive Purpose where
  | use
  | pass
  deriving DecidableEq, Repr

/-- Whether a character may stand between the parts of a structured text. -/
def isSpace (c : Char) : Bool := c == ' ' || c == '\n' || c == '\t' || c == '\r'

/-- The text behind the blanks at its front. -/
def skipSpace (cs : List Char) : List Char := cs.dropWhile isSpace

/-- Reads the rest of a fixed word. -/
def readWord : List Char → Reader Unit
  | [], cs => .ok ((), cs)
  | _ :: _, [] => .error .ended
  | e :: es, c :: cs => if c = e then readWord es cs else .error .malformed

/-! ## Texts -/

/-- Reads the four digits of a code unit. -/
def readUnit : Reader Nat
  | a :: b :: c :: d :: rest =>
    match Text.readHexNumber? [a, b, c, d] with
    | some n => .ok (n, rest)
    | none => .error .malformed
  | short => if Text.Utf8.byteLength short < 4 then .error .ended else .error .malformed

/-- Whether a code unit is the first of a pair. -/
def isHighHalf (n : Nat) : Bool := 0xD800 ≤ n && n ≤ 0xDBFF

/-- Whether a code unit is the second of a pair. -/
def isLowHalf (n : Nat) : Bool := 0xDC00 ≤ n && n ≤ 0xDFFF

/-- Reads the second code unit of a pair, with its escape. -/
def readLowHalf : Reader Nat
  | [] => .error .ended
  | '\\' :: [] => .error .ended
  | '\\' :: 'u' :: rest => do
    let (n, rest) ← readUnit rest
    if isLowHalf n then return (n, rest) else .error .malformed
  | _ => .error .malformed

/-- Reads a character given by its code units, behind `\u`. -/
def readCodePoint (purpose : Purpose) : Reader Char := fun cs => do
  let (n, rest) ← readUnit cs
  if purpose = .pass then return (Char.ofNat n, rest)
  else if isLowHalf n then .error .malformed
  else if isHighHalf n then
    let (m, rest) ← readLowHalf rest
    return (Char.ofNat ((n - 0xD800) * 0x400 + (m - 0xDC00) + 0x10000), rest)
  else return (Char.ofNat n, rest)

/-- Reads an escaped character, behind the backslash. -/
def readEscape (purpose : Purpose) : Reader Char
  | [] => .error .ended
  | c :: rest =>
    match c with
    | '"' => .ok ('"', rest)
    | '\\' => .ok ('\\', rest)
    | '/' => .ok ('/', rest)
    | 'b' => .ok (Char.ofNat 8, rest)
    | 'f' => .ok (Char.ofNat 12, rest)
    | 'n' => .ok ('\n', rest)
    | 'r' => .ok ('\r', rest)
    | 't' => .ok ('\t', rest)
    | 'u' => readCodePoint purpose rest
    | _ => .error .malformed

/-- Reads the rest of a text up to its closing quote, in at most so many characters; `read` holds
what came before, the last character first. -/
def readTextWithin (purpose : Purpose) : Nat → List Char → Reader String
  | 0, _, _ => .error .ended
  | _ + 1, _, [] => .error .ended
  | fuel + 1, read, c :: rest =>
    if c = '"' then .ok (String.ofList read.reverse, rest)
    else if c = '\\' then
      match readEscape purpose rest with
      | .error problem => .error problem
      | .ok (c, rest) => readTextWithin purpose fuel (c :: read) rest
    else if c.toNat < 0x20 then .error .malformed
    else readTextWithin purpose fuel (c :: read) rest

/-- Reads a text behind its opening quote. -/
def readText (purpose : Purpose) : Reader String := fun cs =>
  readTextWithin purpose (cs.length + 1) [] cs

/-! ## Numbers -/

/-- A number as it is written. -/
structure Numeral where
  /-- Whether it has a minus sign. -/
  negative : Bool
  /-- The digits of the whole part. -/
  whole : List Nat
  /-- The digits behind the point, if there is one. -/
  fraction : Option (List Nat)
  /-- The exponent, if there is one: whether it is negative, and its digits. -/
  exponent : Option (Bool × List Nat)
  deriving Repr

/-- The value of a decimal digit. -/
def decimalDigit? (c : Char) : Option Nat :=
  if 48 ≤ c.toNat && c.toNat ≤ 57 then some (c.toNat - 48) else none

/-- Takes the digits off the front of a text. -/
def takeDigits : List Char → List Nat × List Char
  | [] => ([], [])
  | c :: cs =>
    match decimalDigit? c with
    | some d =>
      let (ds, rest) := takeDigits cs
      (d :: ds, rest)
    | none => ([], c :: cs)

/-- Reads at least one digit; `ifEnded` is the problem when the text ends instead. -/
def readDigits (ifEnded : Problem) : Reader (List Nat) := fun cs =>
  match takeDigits cs with
  | ([], []) => .error ifEnded
  | ([], _ :: _) => .error .malformed
  | (ds, rest) => .ok (ds, rest)

/-- Reads the digits of a whole part: a zero stands alone. -/
def readWhole (ifEnded : Problem) : Reader (List Nat) := fun cs => do
  let (digits, rest) ← readDigits ifEnded cs
  match digits with
  | 0 :: _ :: _ => .error .malformed
  | digits => return (digits, rest)

/-- Reads the sign of an exponent. -/
def readExponentSign : List Char → Bool × List Char
  | '-' :: rest => (true, rest)
  | '+' :: rest => (false, rest)
  | rest => (false, rest)

/-- Reads an exponent, if there is one. -/
def readExponent (ifEnded : Problem) : Reader (Option (Bool × List Nat))
  | c :: rest =>
    if c = 'e' || c = 'E' then do
      let (negative, rest) := readExponentSign rest
      let (digits, rest) ← readDigits ifEnded rest
      return (some (negative, digits), rest)
    else .ok (none, c :: rest)
  | [] => .ok (none, [])

/-- Reads a fraction, if there is one. -/
def readFraction (ifEnded : Problem) : Reader (Option (List Nat))
  | '.' :: rest => do
    let (digits, rest) ← readDigits ifEnded rest
    return (some digits, rest)
  | rest => .ok (none, rest)

/-- Reads a number. -/
def readNumeral (purpose : Purpose) : Reader Numeral := fun cs => do
  let ifEnded : Problem := if purpose = .use then .ended else .malformed
  let (negative, cs) := match cs with
    | '-' :: rest => (true, rest)
    | cs => (false, cs)
  let (whole, cs) ← readWhole ifEnded cs
  let (fraction, cs) ← readFraction ifEnded cs
  let (exponent, cs) ← readExponent ifEnded cs
  return ({ negative, whole, fraction, exponent }, cs)

/-! ## The value of a number

A whole number that fits 64 bits is exact. Any other number is a significand times a power of ten in
floating point: the significand takes in the digits of each part as long as it fits 64 bits, further
digits of the whole part count as zeros, and further digits of the fraction do not count.
-/

/-- Takes digits into a significand as long as it fits 64 bits, and returns the digits that are
left. -/
def takeSignificand : Nat → List Nat → Nat × List Nat
  | n, [] => (n, [])
  | n, d :: ds => if 10 * n + d < UInt64.size then takeSignificand (10 * n + d) ds else (n, d :: ds)

/-- A power of ten in floating point. -/
def powerOfTen (n : Nat) : Float := Float.ofScientific 1 false n

/-- A number times a power of ten, none if it is out of range. A power that is too small is
approached in steps. -/
def scale : Nat → Float → Int → Option Float
  | 0, _, _ => some 0
  | steps + 1, x, exponent =>
    if exponent.natAbs ≤ 308 then
      if 0 ≤ exponent then
        let y := x * powerOfTen exponent.natAbs
        if y.isInf then none else some y
      else some (x / powerOfTen exponent.natAbs)
    else if x == 0 then some x
    else if 0 ≤ exponent then none
    else scale steps (x / powerOfTen 308) (exponent + 308)

/-- The number of a sequence of digits. -/
def ofDigits (ds : List Nat) : Nat := ds.foldl (fun n d => 10 * n + d) 0

/-- Takes the digits of a fraction into a significand, each at the cost of a power of ten. -/
def takeFraction (significand : Nat) (fraction : Option (List Nat)) (zeros : Nat) : Nat × Int :=
  match fraction with
  | none => (significand, zeros)
  | some ds =>
    let (n, dropped) := takeSignificand significand ds
    (n, zeros - (ds.length - dropped.length : Nat))

/-- A significand and a power of ten, shifted by a written exponent and read as a floating-point
number. An exponent beyond 32 bits makes the number zero or puts it out of range. -/
def floatValue (significand : Nat) (power : Int) (exponent : Option (Bool × List Nat)) :
    Option Float :=
  let x := (UInt64.ofNat significand).toFloat
  match exponent with
  | none => scale 4 x power
  | some (negative, digits) =>
    let e := ofDigits digits
    if Nat.pow 2 31 ≤ e then
      if significand ≠ 0 && !negative then none else some 0
    else scale 4 x (if negative then power - e else power + e)

/-- The number that a numeral stands for, none if it is out of range. -/
def Numeral.value? (n : Numeral) : Option JsonNumber :=
  let (significand, left) := takeSignificand 0 n.whole
  if left.isEmpty && n.fraction.isNone && n.exponent.isNone then
    if !n.negative then some (.natural (UInt64.ofNat significand))
    else if 0 < significand && significand ≤ Nat.pow 2 63 then
      some (.negative (UInt64.ofNat significand))
    else some (.float (-(UInt64.ofNat significand).toFloat))
  else
    let (significand, power) := takeFraction significand n.fraction left.length
    (floatValue significand power n.exponent).map fun x =>
      .float (if n.negative then -x else x)

end GenerationalCache.Json
