/-!
# Numbers and bytes in base sixteen

Digits are lower case. A number has as many digits as it needs; a byte has two, and a sequence of
bytes is written without anything between them.
-/

namespace GenerationalCache.Text

/-- The digit of a value below sixteen. -/
def hexDigit (n : Nat) : Char :=
  if n < 10 then Char.ofNat (48 + n) else Char.ofNat (87 + n)

/-- The value of a digit, in either case. -/
def hexValue? (c : Char) : Option Nat :=
  let n := c.toNat
  if 48 ≤ n && n ≤ 57 then some (n - 48)
  else if 97 ≤ n && n ≤ 102 then some (n - 87)
  else if 65 ≤ n && n ≤ 70 then some (n - 55)
  else none

/-- A number in base sixteen, without leading zeros. -/
def hexNumber (n : Nat) : String := String.ofList (Nat.toDigits 16 n)

/-- The number that digits in base sixteen stand for. -/
def readHexNumber? (digits : List Char) : Option Nat :=
  digits.foldlM (fun n c => (hexValue? c).map (16 * n + ·)) 0

/-- The digits of a sequence of bytes. -/
def hexDigits : List UInt8 → List Char
  | [] => []
  | b :: bs => hexDigit (b.toNat / 16) :: hexDigit (b.toNat % 16) :: hexDigits bs

/-- A sequence of bytes in base sixteen. -/
def hexBytes (bytes : List UInt8) : String := String.ofList (hexDigits bytes)

/-- The bytes that pairs of digits stand for. -/
def readHexDigits? : List Char → Option (List UInt8)
  | [] => some []
  | [_] => none
  | a :: b :: rest => do
    let high ← hexValue? a
    let low ← hexValue? b
    let bytes ← readHexDigits? rest
    return UInt8.ofNat (16 * high + low) :: bytes

/-- The bytes that a text in base sixteen stands for. -/
def readHexBytes? (text : String) : Option (List UInt8) := readHexDigits? text.toList

/-- A word of 64 bits as sixteen digits. -/
def hexWord (w : UInt64) : String :=
  let digits := Nat.toDigits 16 w.toNat
  String.ofList (List.replicate (16 - digits.length) '0' ++ digits)

/-- The word of 64 bits that digits in base sixteen stand for. -/
def readHexWord? (text : String) : Option UInt64 :=
  (readHexNumber? text.toList).map UInt64.ofNat

end GenerationalCache.Text
