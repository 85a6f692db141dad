import GenerationalCache.Json.Lexical

/-!
# Reading structured texts

A value is read from the front of a text; a whole text is one value with blanks around it.
-/

namespace GenerationalCache.Json

/-- What remains in a list of items or fields. -/
inductive Following where
  /-- Another one. -/
  | more
  /-- Nothing. -/
  | none
  deriving DecidableEq, Repr

/-- Reads what separates the items of a list, or ends it. -/
def readSeparator (close : Char) : Reader Following := fun cs =>
  match skipSpace cs with
  | [] => .error .ended
  | c :: rest =>
    if c = ',' then .ok (.more, rest)
    else if c = close then .ok (.none, rest)
    else .error .malformed

/-- Reads the opening quote of a field's name. -/
def readNameQuote : Reader Unit := fun cs =>
  match skipSpace cs with
  | [] => .error .ended
  | c :: rest => if c = '"' then .ok ((), rest) else .error .malformed

/-- Reads the colon behind a field's name. -/
def readColon : Reader Unit := fun cs =>
  match skipSpace cs with
  | [] => .error .ended
  | c :: rest => if c = ':' then .ok ((), rest) else .error .malformed

/-- Reads a number as a value. A number that is passed over has no value. -/
def readNumber (purpose : Purpose) : Reader Json := fun cs => do
  let (numeral, rest) ← readNumeral purpose cs
  if purpose = .pass then return (.null, rest)
  else
    match numeral.value? with
    | some n => return (.number n, rest)
    | none => .error .malformed

mutual

/-- Reads a value whose parts lie at most `fuel` deep or far. -/
def readValueWithin (purpose : Purpose) : Nat → Reader Json
  | 0, _ => .error .ended
  | fuel + 1, cs =>
    match skipSpace cs with
    | [] => .error .ended
    | c :: rest =>
      if c = 'n' then (readWord "ull".toList rest).map fun r => (.null, r.2)
      else if c = 't' then (readWord "rue".toList rest).map fun r => (.bool true, r.2)
      else if c = 'f' then (readWord "alse".toList rest).map fun r => (.bool false, r.2)
      else if c = '"' then (readText purpose rest).map fun r => (.text r.1, r.2)
      else if c = '-' || (decimalDigit? c).isSome then readNumber purpose (c :: rest)
      else if c = '[' then
        match skipSpace rest with
        | ']' :: rest => .ok (.array [], rest)
        | [] => .error .ended
        | rest => (readItemsWithin purpose fuel rest).map fun r => (.array r.1, r.2)
      else if c = '\x7b' then
        match skipSpace rest with
        | '\x7d' :: rest => .ok (.object [], rest)
        | rest => (readFieldsWithin purpose fuel rest).map fun r => (ofFields r.1, r.2)
      else .error .malformed

/-- Reads the items of an array up to its end. -/
def readItemsWithin (purpose : Purpose) : Nat → Reader (List Json)
  | 0, _ => .error .ended
  | fuel + 1, cs =>
    match readValueWithin purpose fuel cs with
    | .error problem => .error problem
    | .ok (item, rest) =>
      match readSeparator ']' rest with
      | .error problem => .error problem
      | .ok (.none, rest) => .ok ([item], rest)
      | .ok (.more, rest) =>
        (readItemsWithin purpose fuel rest).map fun r => (item :: r.1, r.2)

/-- Reads the fields of an object up to its end. -/
def readFieldsWithin (purpose : Purpose) : Nat → Reader (List (String × Json))
  | 0, _ => .error .ended
  | fuel + 1, cs =>
    match (do
      let ((), rest) ← readNameQuote cs
      let (name, rest) ← readText purpose rest
      let ((), rest) ← readColon rest
      return (name, rest) : Except Problem (String × List Char)) with
    | .error problem => .error problem
    | .ok (name, rest) =>
      match readValueWithin purpose fuel rest with
      | .error problem => .error problem
      | .ok (value, rest) =>
        match readSeparator '\x7d' rest with
        | .error problem => .error problem
        | .ok (.none, rest) => .ok ([(name, value)], rest)
        | .ok (.more, rest) =>
          (readFieldsWithin purpose fuel rest).map fun r => ((name, value) :: r.1, r.2)

end

/-- Reads a value. Every part of it is at least one character, so the length of the text bounds how
deep and how far they lie. -/
def readValue (purpose : Purpose) : Reader Json := fun cs =>
  readValueWithin purpose (2 * cs.length + 2) cs

/-- Accepts the end of a text, with blanks before it. -/
def readEnd (cs : List Char) : Except Problem Unit :=
  if (skipSpace cs).isEmpty then .ok () else .error .malformed

/-- Reads a whole text. -/
def parse (text : String) : Except Problem Json := do
  let (value, rest) ← readValue .use text.toList
  readEnd rest
  return value

end GenerationalCache.Json
