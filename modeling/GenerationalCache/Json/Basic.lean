import GenerationalCache.Sorted
import GenerationalCache.Text.Decimal
import GenerationalCache.Text.Quoted

/-!
# Structured values

Configurations and cached values come from outside as structured values: texts, numbers, truth
values, and arrays and objects of them. A number is a whole number of 64 bits, with or without a
sign, or a floating-point number; the three are told apart because a setting may accept one and not
the other. The fields of an object are in ascending order of their names, each name once.
-/

namespace GenerationalCache

/-- A number in a structured value. -/
inductive JsonNumber where
  /-- A whole number that is not negative. -/
  | natural (n : UInt64)
  /-- A negative whole number, given without its sign. -/
  | negative (n : UInt64)
  /-- Any other number. -/
  | float (x : Float)

/-- A structured value. -/
inductive Json where
  | null
  | bool (b : Bool)
  | number (n : JsonNumber)
  | text (s : String)
  | array (items : List Json)
  | object (fields : List (String × Json))
  deriving Inhabited

namespace Json

/-- A whole number as a value. -/
def natural (n : Nat) : Json := .number (.natural (UInt64.ofNat n))

/-- A word as a value. -/
def word (n : UInt64) : Json := .number (.natural n)

/-- An object with fields in any order; of fields with the same name the last one counts. -/
def ofFields (fields : List (String × Json)) : Json :=
  .object (fields.foldl (fun sorted field => insertAscending Prod.fst field sorted) [])

/-- The field of an object. -/
def field? (name : String) : Json → Option Json
  | object fields => (fields.find? fun f => f.1 == name).map Prod.snd
  | _ => none

/-- What a value is, in the words of a message. -/
def kindText : Json → String
  | null => "null"
  | bool b => "boolean `" ++ Text.truth b ++ "`"
  | number (.natural n) => "integer `" ++ toString n ++ "`"
  | number (.negative n) => "integer `-" ++ toString n ++ "`"
  | number (.float x) => "floating point `" ++ Text.shortest x ++ "`"
  | text s => "string " ++ Text.quoted s
  | array _ => "sequence"
  | object _ => "map"

end Json

end GenerationalCache
