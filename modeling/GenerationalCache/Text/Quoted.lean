import GenerationalCache.Text.Hex
import GenerationalCache.Text.Unprintable

/-!
# Quoted text

How texts, and collections of texts, are shown to a person: in double quotes, with a backslash before
a quote or a backslash, short escapes for the common controls, and the code point of any other
character that has no picture of its own. Two different texts never look the same.
-/

namespace GenerationalCache.Text

/-- How a character looks between quotes. -/
def quotedChar (c : Char) : String :=
  match c with
  | '"' => "\\\""
  | '\\' => "\\\\"
  | '\n' => "\\n"
  | '\r' => "\\r"
  | '\t' => "\\t"
  | '\x00' => "\\0"
  | c => if isUnprintable c then "\\u\x7b" ++ hexNumber c.toNat ++ "\x7d" else c.toString

/-- A text in double quotes. -/
def quoted (s : String) : String :=
  "\"" ++ String.join (s.toList.map quotedChar) ++ "\""

/-- Parts with commas between them. -/
def commaSeparated (parts : List String) : String := String.intercalate ", " parts

/-- A list of texts. -/
def quotedList (items : List String) : String :=
  "[" ++ commaSeparated (items.map quoted) ++ "]"

/-- A set of texts. -/
def quotedSet (items : List String) : String :=
  "\x7b" ++ commaSeparated (items.map quoted) ++ "\x7d"

/-- A map from texts to texts. -/
def quotedMap (pairs : List (String × String)) : String :=
  "\x7b" ++ commaSeparated (pairs.map fun p => quoted p.1 ++ ": " ++ quoted p.2) ++ "\x7d"

/-- A name and a text that belongs to it. -/
def quotedIn (name item : String) : String := name ++ "(" ++ quoted item ++ ")"

/-- A truth value in words. -/
def truth (b : Bool) : String := if b then "true" else "false"

/-- The fields of a record, each with its name before it. -/
def fieldTexts (fields : List (String × String)) : List String :=
  fields.map fun f => f.1 ++ ": " ++ f.2

/-- A name and, in braces, parts that are already in text. -/
def braced (name : String) (parts : List String) : String :=
  name ++ " \x7b " ++ commaSeparated parts ++ " \x7d"

/-- A record that shows all of its fields. -/
def record (name : String) (fields : List (String × String)) : String :=
  braced name (fieldTexts fields)

/-- A record that does not show all of its fields, and ends with two points. -/
def openRecord (name : String) (fields : List (String × String)) : String :=
  braced name (fieldTexts fields ++ [".."])

end GenerationalCache.Text
