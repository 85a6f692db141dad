import GenerationalCache.Text.Utf8

/-!
# Reading from bytes

A decoder takes a value off the front of a sequence of bytes and returns it with the bytes that are
left, or the first failure it meets. Whole numbers have eight bytes, the lowest first. A text, and a
sequence of anything, starts with its length as such a number.
-/

namespace GenerationalCache.Wire

/-- Why bytes do not hold a value. -/
inductive Failure where
  /-- The bytes end inside a number or before a flag. -/
  | endOfBytes
  /-- The bytes end inside a text, of which the announced length says that more would come. -/
  | endOfText
  /-- A flag is neither zero nor one. -/
  | flag (found : UInt8)
  /-- The bytes of a text are no text. -/
  | text (cause : Text.Utf8.Failure)
  deriving DecidableEq, Repr

/-- What the failure tells a person. -/
def Failure.message : Failure → String
  | endOfBytes => "io error: unexpected end of file"
  | endOfText => "io error: "
  | flag found =>
    "invalid u8 while decoding bool, expected 0 or 1, found " ++ toString found.toNat
  | text cause => "string is not valid utf8: " ++ cause.message

/-- Takes a value off the front of a sequence of bytes. -/
abbrev Decoder (α : Type) : Type := List UInt8 → Except Failure (α × List UInt8)

namespace Decoder

variable {α β γ : Type}

/-- Reads a value and turns it into another. -/
def map (f : α → β) (d : Decoder α) : Decoder β := fun bytes =>
  (d bytes).map fun r => (f r.1, r.2)

/-- Reads two values, one after the other. -/
def pair (d : Decoder α) (e : Decoder β) : Decoder (α × β) := fun bytes =>
  match d bytes with
  | .error failure => .error failure
  | .ok (a, rest) => (e rest).map fun r => ((a, r.1), r.2)

/-- Reads a whole number. -/
def word : Decoder UInt64
  | a :: b :: c :: d :: e :: f :: g :: h :: rest =>
    .ok (UInt64.ofNat (a.toNat + 256 * (b.toNat + 256 * (c.toNat + 256 * (d.toNat +
      256 * (e.toNat + 256 * (f.toNat + 256 * (g.toNat + 256 * h.toNat))))))), rest)
  | _ => .error .endOfBytes

/-- Reads a flag. -/
def flag : Decoder Bool
  | [] => .error .endOfBytes
  | b :: rest =>
    if b = 0 then .ok (false, rest) else if b = 1 then .ok (true, rest) else .error (.flag b)

/-- Reads a text of a given length. -/
def textOf (length : Nat) : Decoder String := fun bytes =>
  if bytes.length < length then .error .endOfText
  else
    match Text.Utf8.decode (bytes.take length) with
    | .error cause => .error (.text cause)
    | .ok s => .ok (s, bytes.drop length)

/-- Reads a text. -/
def text : Decoder String := fun bytes =>
  match word bytes with
  | .error failure => .error failure
  | .ok (length, rest) => textOf length.toNat rest

/-- Reads a given number of values. -/
def times (d : Decoder α) : Nat → Decoder (List α)
  | 0, bytes => .ok ([], bytes)
  | n + 1, bytes =>
    match d bytes with
    | .error failure => .error failure
    | .ok (a, rest) => (times d n rest).map fun r => (a :: r.1, r.2)

/-- Reads a sequence of values. -/
def sequence (d : Decoder α) : Decoder (List α) := fun bytes =>
  match word bytes with
  | .error failure => .error failure
  | .ok (count, rest) => times d count.toNat rest

/-- Reads a value and ignores what comes after it. -/
def run (d : Decoder α) (bytes : List UInt8) : Except Failure α := (d bytes).map Prod.fst

end Decoder

end GenerationalCache.Wire
