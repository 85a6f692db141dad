import GenerationalCache.Json.Basic

/-!
# What a structured value is taken for

A configuration or a cached value is taken from a structured value of the right shape. The parts of a
value are looked at in order, and the first that does not fit is reported.

A record is taken from an object or from an array. The fields of an object are looked at in the order
of their names; unknown ones are ignored, and only then are missing ones noticed. The items of an array
are the fields in the order of their declaration.
-/

namespace GenerationalCache.Json

/-- Why a structured value was not taken. -/
inductive Misfit where
  /-- A part is of one kind, and another was expected. -/
  | kind (found expected : String)
  /-- A part is of the right kind and not among the expected values. -/
  | value (found expected : String)
  /-- A record lacks a field. -/
  | missing (field : String)
  /-- An array has too few items. -/
  | tooShort (length : Nat) (expected : String)
  /-- An array has too many items. -/
  | tooLong (length : Nat)
  deriving DecidableEq, Repr

/-- What the misfit tells a person. -/
def Misfit.message : Misfit → String
  | kind found expected => "invalid type: " ++ found ++ ", expected " ++ expected
  | value found expected => "invalid value: " ++ found ++ ", expected " ++ expected
  | missing field => "missing field `" ++ field ++ "`"
  | tooShort length expected => "invalid length " ++ toString length ++ ", expected " ++ expected
  | tooLong length =>
    "invalid length " ++ toString length ++ ", expected fewer elements in array"

/-- The misfit of a value of the wrong kind. -/
def wrongKind {α : Type} (j : Json) (expected : String) : Except Misfit α :=
  .error (.kind j.kindText expected)

/-- Takes a text. -/
def takeText : Json → Except Misfit String
  | text s => .ok s
  | j => wrongKind j "a string"

/-- Takes a truth value. -/
def takeBool : Json → Except Misfit Bool
  | bool b => .ok b
  | j => wrongKind j "a boolean"

/-- Takes a whole number that is not negative, called `expected` in messages. -/
def takeWord (expected : String) (j : Json) : Except Misfit UInt64 :=
  match j with
  | number (.natural n) => .ok n
  | number (.negative _) => .error (.value j.kindText expected)
  | j => wrongKind j expected

/-- Takes a list. -/
def takeList {α : Type} (item : Json → Except Misfit α) : Json → Except Misfit (List α)
  | array items => items.mapM item
  | j => wrongKind j "a sequence"

/-- Takes a set of texts. -/
def takeTextSet (j : Json) : Except Misfit TextSet := (takeList takeText j).map TextSet.ofList

/-- Takes a map from texts to texts. -/
def takeTextMap : Json → Except Misfit TextMap
  | object fields =>
    (fields.mapM fun f => (takeText f.2).map fun value => (f.1, value)).map TextMap.ofList
  | j => wrongKind j "a map"

/-- A field of a record that is put together in a draft of type `δ`. -/
structure Field (δ : Type) where
  /-- The name of the field. -/
  name : String
  /-- Takes the value of the field into a draft. -/
  take : Json → δ → Except Misfit δ

/-- How records of type `α` are put together. -/
structure RecordShape (δ α : Type) where
  /-- What a value of another kind is told to have been expected instead. -/
  expected : String
  /-- The fields, in the order of their declaration. -/
  fields : List (Field δ)
  /-- The draft without any field. -/
  blank : δ
  /-- The record of a draft that was taken from an object. -/
  finish : δ → Except Misfit α
  /-- Whether an array may leave fields out, for which there are defaults then. -/
  optional : Bool

namespace RecordShape

variable {δ α : Type}

/-- Takes the fields of an object into a draft. -/
def takeFields (shape : RecordShape δ α) (fields : List (String × Json)) : Except Misfit δ :=
  fields.foldlM
    (fun draft f =>
      match shape.fields.find? fun field => field.name == f.1 with
      | some field => field.take f.2 draft
      | none => .ok draft)
    shape.blank

/-- Takes the items of an array into a draft, each for one field. -/
def takeItems (shape : RecordShape δ α) (items : List Json) : Except Misfit δ :=
  (shape.fields.zip items).foldlM (fun draft f => f.1.take f.2 draft) shape.blank

/-- What an array with too few items is told to have been expected instead. -/
def expectedItems (shape : RecordShape δ α) : String :=
  shape.expected ++ " with " ++ toString shape.fields.length ++ " elements"

/-- Takes a record. -/
def take (shape : RecordShape δ α) : Json → Except Misfit α
  | object fields => do
    let draft ← shape.takeFields fields
    shape.finish draft
  | array items => do
    let draft ← shape.takeItems items
    if items.length < shape.fields.length && !shape.optional then
      .error (.tooShort items.length shape.expectedItems)
    else if shape.fields.length < items.length then .error (.tooLong items.length)
    else shape.finish draft
  | j => wrongKind j shape.expected

end RecordShape

/-- The value of a field that may not be missing. -/
def require {α : Type} (field : String) : Option α → Except Misfit α
  | some a => .ok a
  | none => .error (.missing field)

end GenerationalCache.Json
