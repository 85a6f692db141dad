/-!
# Text as bytes

UTF-8 writes a character as one to four bytes. Reading refuses what writing never produces, and says
where the first bad sequence starts: either the bytes end inside it, or after some valid first bytes
comes one that cannot follow them.

A sequence is told by its first byte, and what may come second depends on the first: the narrower
ranges after `E0`, `ED`, `F0` and `F4` keep out the overlong forms, the surrogates and what lies
beyond the last code point. Every later byte is `80` to `BF`.
-/

namespace GenerationalCache.Text.Utf8

/-- Why bytes are no text. Both name the place where the first bad sequence starts. -/
inductive Failure where
  /-- After `length` good bytes of a sequence comes a byte that cannot follow them. A byte that
  cannot start a sequence, and one that a wrong second byte follows, count as one. -/
  | invalid (length start : Nat)
  /-- The bytes end inside a sequence. -/
  | incomplete (start : Nat)
  deriving DecidableEq, Repr

/-- What the failure tells a person. -/
def Failure.message : Failure → String
  | invalid length start =>
    "invalid utf-8 sequence of " ++ toString length ++ " bytes from index " ++ toString start
  | incomplete start => "incomplete utf-8 byte sequence from index " ++ toString start

/-- The bytes of a code point. -/
def encodeCodePoint (n : Nat) : List UInt8 :=
  if n < 0x80 then
    [UInt8.ofNat n]
  else if n < 0x800 then
    [UInt8.ofNat (0xC0 + n / 0x40), UInt8.ofNat (0x80 + n % 0x40)]
  else if n < 0x10000 then
    [UInt8.ofNat (0xE0 + n / 0x1000), UInt8.ofNat (0x80 + n / 0x40 % 0x40),
      UInt8.ofNat (0x80 + n % 0x40)]
  else
    [UInt8.ofNat (0xF0 + n / 0x40000), UInt8.ofNat (0x80 + n / 0x1000 % 0x40),
      UInt8.ofNat (0x80 + n / 0x40 % 0x40), UInt8.ofNat (0x80 + n % 0x40)]

/-- The bytes of a sequence of characters. -/
def encodeChars (cs : List Char) : List UInt8 :=
  cs.flatMap fun c => encodeCodePoint c.toNat

/-- The bytes of a text. -/
def encode (s : String) : List UInt8 := encodeChars s.toList

/-- The number of bytes of a sequence of characters. -/
def byteLength (cs : List Char) : Nat := (encodeChars cs).length

/-- Whether a byte may come third or fourth in a sequence. -/
def isContinuation (b : UInt8) : Bool := 0x80 ≤ b.toNat && b.toNat ≤ 0xBF

/-- Whether a byte may come second after a given first byte. -/
def isSecond (lead b : UInt8) : Bool :=
  let low := if lead.toNat = 0xE0 then 0xA0 else if lead.toNat = 0xF0 then 0x90 else 0x80
  let high := if lead.toNat = 0xED then 0x9F else if lead.toNat = 0xF4 then 0x8F else 0xBF
  low ≤ b.toNat && b.toNat ≤ high

/-- How long the sequence is that a byte starts, if it starts one. -/
def sequenceLength? (lead : UInt8) : Option Nat :=
  let n := lead.toNat
  if n < 0x80 then some 1
  else if 0xC2 ≤ n && n ≤ 0xDF then some 2
  else if 0xE0 ≤ n && n ≤ 0xEF then some 3
  else if 0xF0 ≤ n && n ≤ 0xF4 then some 4
  else none

/-- Reads characters from bytes, the first of which stands at `start`. -/
def decodeFrom (start : Nat) : List UInt8 → Except Failure (List Char)
  | [] => .ok []
  | a :: rest =>
    match sequenceLength? a with
    | some 1 => (decodeFrom (start + 1) rest).map (Char.ofNat a.toNat :: ·)
    | some 2 =>
      match rest with
      | [] => .error (.incomplete start)
      | b :: rest =>
        if isSecond a b then
          (decodeFrom (start + 2) rest).map
            (Char.ofNat ((a.toNat - 0xC0) * 0x40 + (b.toNat - 0x80)) :: ·)
        else .error (.invalid 1 start)
    | some 3 =>
      match rest with
      | [] => .error (.incomplete start)
      | b :: rest =>
        if isSecond a b then
          match rest with
          | [] => .error (.incomplete start)
          | c :: rest =>
            if isContinuation c then
              (decodeFrom (start + 3) rest).map
                (Char.ofNat
                  ((a.toNat - 0xE0) * 0x1000 + (b.toNat - 0x80) * 0x40 + (c.toNat - 0x80)) :: ·)
            else .error (.invalid 2 start)
        else .error (.invalid 1 start)
    | some _ =>
      match rest with
      | [] => .error (.incomplete start)
      | b :: rest =>
        if isSecond a b then
          match rest with
          | [] => .error (.incomplete start)
          | c :: rest =>
            if isContinuation c then
              match rest with
              | [] => .error (.incomplete start)
              | d :: rest =>
                if isContinuation d then
                  (decodeFrom (start + 4) rest).map
                    (Char.ofNat
                      ((a.toNat - 0xF0) * 0x40000 + (b.toNat - 0x80) * 0x1000 +
                        (c.toNat - 0x80) * 0x40 + (d.toNat - 0x80)) :: ·)
                else .error (.invalid 3 start)
            else .error (.invalid 2 start)
        else .error (.invalid 1 start)
    | none => .error (.invalid 1 start)

/-- Reads a text from bytes. -/
def decode (bytes : List UInt8) : Except Failure String :=
  (decodeFrom 0 bytes).map String.ofList

end GenerationalCache.Text.Utf8
