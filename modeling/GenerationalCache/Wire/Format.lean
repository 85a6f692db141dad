import GenerationalCache.AuthResult
import GenerationalCache.Config
import GenerationalCache.Wire.Decoder

/-!
# The byte format

How cached values are written for a provider. A `Format` is an encoder and a decoder for one type.
Numbers have a fixed width, collections start with their length, records are their fields in order,
and sets and maps are written in ascending order. Reading is more tolerant than writing: sets and maps
may come in any order and with repeats, of which the last counts, and what follows a value is ignored.
-/

namespace GenerationalCache.Wire

/-- How values of a type are written and read. -/
structure Format (α : Type) where
  /-- The bytes of a value. -/
  encode : α → List UInt8
  /-- Takes a value off the front of bytes. -/
  decode : Decoder α

/-- A whole number as eight bytes, the lowest first. -/
def encodeWord (w : UInt64) : List UInt8 :=
  (List.range 8).map fun i => UInt8.ofNat (w.toNat / Nat.pow 2 (8 * i))

/-- A text: its length and its bytes. -/
def encodeText (s : String) : List UInt8 :=
  let bytes := Text.Utf8.encode s
  encodeWord (UInt64.ofNat bytes.length) ++ bytes

/-- A sequence: its length and its elements. -/
def encodeSequence {α : Type} (encode : α → List UInt8) (xs : List α) : List UInt8 :=
  encodeWord (UInt64.ofNat xs.length) ++ xs.flatMap encode

namespace Format

/-- Whole numbers. -/
def word : Format UInt64 := ⟨encodeWord, .word⟩

/-- Flags. -/
def flag : Format Bool := ⟨fun b => [if b then 1 else 0], .flag⟩

/-- Texts. -/
def text : Format String := ⟨encodeText, .text⟩

/-- Lists. -/
def list {α : Type} (f : Format α) : Format (List α) := ⟨encodeSequence f.encode, .sequence f.decode⟩

/-- Two values, one after the other. -/
def pair {α β : Type} (f : Format α) (g : Format β) : Format (α × β) :=
  ⟨fun p => f.encode p.1 ++ g.encode p.2, .pair f.decode g.decode⟩

/-- The values of one type written as those of another. -/
def via {α β : Type} (f : Format α) (wrap : α → β) (unwrap : β → α) : Format β :=
  ⟨fun b => f.encode (unwrap b), .map wrap f.decode⟩

/-- Sets of texts. -/
def textSet : Format TextSet := (list text).via TextSet.ofList TextSet.items

/-- Maps from texts to texts. -/
def textMap : Format TextMap := (list (pair text text)).via TextMap.ofList TextMap.pairs

/-- Subjects: principals, public credentials, private credentials, and whether it is closed. -/
def subject : Format Subject :=
  (pair textSet (pair textMap (pair textMap flag))).via
    (fun (principals, publicCredentials, privateCredentials, readOnly) =>
      { principals, publicCredentials, privateCredentials, readOnly })
    (fun s => (s.principals, s.publicCredentials, s.privateCredentials, s.readOnly))

/-- Authentication results: the subject, then the keys. -/
def authResult {K : Type} (keys : Format K) : Format (AuthResult K) :=
  (pair subject (list keys)).via
    (fun (subject, lookupKeys) => { subject, lookupKeys })
    (fun r => (r.subject, r.lookupKeys))

/-- Configurations: initial size, largest size, timeout. -/
def config : Format Config :=
  (pair word (pair word text)).via
    (fun (initialSize, maxSize, timeout) => { initialSize, maxSize, timeout })
    (fun c => (c.initialSize, c.maxSize, c.timeout))

end Format

end GenerationalCache.Wire
