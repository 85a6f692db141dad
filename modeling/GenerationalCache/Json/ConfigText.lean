import GenerationalCache.Json.Reader
import GenerationalCache.Json.Values

/-!
# Reading a configuration from text

A configuration is read from a text from left to right, and the first problem met is the one that is
reported: a setting of the wrong kind before a broken text that comes after it. Fields that are no
settings are passed over.
-/

namespace GenerationalCache.ConfigText

open Json

/-- What is wrong where a setting of another kind was expected. The value is looked at just far
enough to know its kind. -/
def mismatch (cs : List Char) : Problem :=
  let problemOf {α : Type} (r : Except Problem α) : Problem :=
    match r with
    | .error problem => problem
    | .ok _ => .mismatched
  match cs with
  | [] => .ended
  | c :: rest =>
    if c = 'n' then problemOf (readWord "ull".toList rest)
    else if c = 't' then problemOf (readWord "rue".toList rest)
    else if c = 'f' then problemOf (readWord "alse".toList rest)
    else if c = '"' then problemOf (readText .use rest)
    else if c = '-' || (decimalDigit? c).isSome then problemOf (readNumber .use cs)
    else if c = '[' || c = '\x7b' then .mismatched
    else .malformed

/-- Reads a size. -/
def readSize : Reader UInt64 := fun cs =>
  let cs := skipSpace cs
  match readNumber .use cs with
  | .ok (.number (.natural n), rest) => .ok (n, rest)
  | _ => .error (mismatch cs)

/-- Reads a timeout. -/
def readTimeout : Reader String := fun cs =>
  match skipSpace cs with
  | '"' :: rest => readText .use rest
  | cs => .error (mismatch cs)

/-- A setting, by the name of its field. -/
inductive Setting where
  | initialSize
  | maxSize
  | timeout
  deriving DecidableEq, Repr

/-- The setting with a given name. -/
def Setting.ofName? : String → Option Setting
  | "initialSize" => some initialSize
  | "maxSize" => some maxSize
  | "timeout" => some timeout
  | _ => none

/-- Whether a draft has a setting. -/
def isSet (d : Config.Draft) : Setting → Bool
  | .initialSize => d.initialSize.isSome
  | .maxSize => d.maxSize.isSome
  | .timeout => d.timeout.isSome

/-- Reads the value of a setting into a draft. -/
def readSetting (d : Config.Draft) (s : Setting) : Reader Config.Draft := fun cs =>
  match s with
  | .initialSize => (readSize cs).map fun r => ({ d with initialSize := some r.1 }, r.2)
  | .maxSize => (readSize cs).map fun r => ({ d with maxSize := some r.1 }, r.2)
  | .timeout => (readTimeout cs).map fun r => ({ d with timeout := some r.1 }, r.2)

/-- Reads the value of a field into a draft. A setting that comes again is not read at all. -/
def readField (d : Config.Draft) (name : String) : Reader Config.Draft := fun cs =>
  match Setting.ofName? name with
  | none => do
    let ((), rest) ← readColon cs
    let (_, rest) ← readValue .pass rest
    return (d, rest)
  | some s => do
    if isSet d s then .error .mismatched
    let ((), rest) ← readColon cs
    readSetting d s rest

/-- Reads fields up to the end of an object, at most `fuel` of them. -/
def readFieldsWithin : Nat → Config.Draft → Reader Config.Draft
  | 0, _, _ => .error .ended
  | fuel + 1, d, cs =>
    match (do
      let ((), rest) ← readNameQuote cs
      let (name, rest) ← readText .use rest
      let (d, rest) ← readField d name rest
      let (following, rest) ← readSeparator '\x7d' rest
      return ((d, following), rest) :
        Except Problem ((Config.Draft × Following) × List Char)) with
    | .error problem => .error problem
    | .ok ((d, .none), rest) => .ok (d, rest)
    | .ok ((d, .more), rest) => readFieldsWithin fuel d rest

/-- Reads the fields of an object. -/
def readObject : Reader Config.Draft := fun cs =>
  match skipSpace cs with
  | '\x7d' :: rest => .ok ({}, rest)
  | cs => readFieldsWithin (cs.length + 1) {} cs

/-- Reads the items of an array, each for the next setting. The array may end before any of them and
has to end after the last. -/
def readItems (d : Config.Draft) (first : Bool) : List Setting → Reader Config.Draft
  | [], cs =>
    match skipSpace cs with
    | [] => .error .ended
    | ']' :: rest => .ok (d, rest)
    | _ => .error .malformed
  | s :: settings, cs =>
    match skipSpace cs with
    | [] => .error .ended
    | c :: rest =>
      if c = ']' then .ok (d, rest)
      else if first then
        match readSetting d s (c :: rest) with
        | .error problem => .error problem
        | .ok (d, rest) => readItems d false settings rest
      else if c = ',' then
        match skipSpace rest with
        | [] => .error .ended
        | ']' :: _ => .error .malformed
        | rest =>
          match readSetting d s rest with
          | .error problem => .error problem
          | .ok (d, rest) => readItems d false settings rest
      else .error .malformed

/-- Reads a configuration from a whole text. -/
def read (text : String) : Except Problem Config := do
  let cs := skipSpace text.toList
  let (d, rest) ← match cs with
    | '\x7b' :: rest => readObject rest
    | '[' :: rest => readItems {} true [.initialSize, .maxSize, .timeout] rest
    | cs => .error (mismatch cs)
  readEnd rest
  return d.finish

end GenerationalCache.ConfigText
