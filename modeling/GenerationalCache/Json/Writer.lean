import GenerationalCache.Json.Basic

/-!
# Writing structured values

The text of a structured value on one line and without blanks.
-/

namespace GenerationalCache.Json

/-- How a character is written between quotes. -/
def escapedChar (c : Char) : String :=
  match c with
  | '"' => "\\\""
  | '\\' => "\\\\"
  | '\n' => "\\n"
  | '\r' => "\\r"
  | '\t' => "\\t"
  | c =>
    if c.toNat < 0x20 then
      "\\u00" ++ String.ofList [Text.hexDigit (c.toNat / 16), Text.hexDigit (c.toNat % 16)]
    else c.toString

/-- The text of a text. -/
def writeText (s : String) : String :=
  s.toList.foldl (fun out c => out ++ escapedChar c) "\"" ++ "\""

/-- The text of a number. -/
def writeNumber : JsonNumber → String
  | .natural n => toString n
  | .negative n => "-" ++ toString n
  | .float x => Text.shortest x

mutual

/-- Writes a value behind a text. -/
def writeTo (out : String) : Json → String
  | null => out ++ "null"
  | bool b => out ++ Text.truth b
  | number n => out ++ writeNumber n
  | text s => out ++ writeText s
  | array items => writeItemsTo (out ++ "[") true items ++ "]"
  | object fields => writeFieldsTo (out ++ "\x7b") true fields ++ "\x7d"

/-- Writes the items of an array behind a text, with commas between them. -/
def writeItemsTo (out : String) (first : Bool) : List Json → String
  | [] => out
  | item :: items => writeItemsTo (writeTo (if first then out else out ++ ",") item) false items

/-- Writes the fields of an object behind a text, with commas between them. -/
def writeFieldsTo (out : String) (first : Bool) : List (String × Json) → String
  | [] => out
  | (name, value) :: fields =>
    writeFieldsTo
      (writeTo ((if first then out else out ++ ",") ++ writeText name ++ ":") value) false fields

end

/-- The text of a value. -/
def write (j : Json) : String := writeTo "" j

end GenerationalCache.Json
