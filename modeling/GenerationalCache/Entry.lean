/-!
# Entries

What a table holds under a key is an entry: either a resolved value, or a placeholder that a lookup
left behind so that later lookups of the same key meet in one place. An entry never changes. To
store a value is to put a new entry in the place of the old one, so the identity of an entry is also
the identity of its value.
-/

namespace GenerationalCache

/-- A box around a cached value. -/
structure Entry (V : Type) where
  /-- Which entry this is: no two entries that a cache makes share an `id`. -/
  id : Nat
  /-- The value, absent in a placeholder. -/
  value : Option V
  deriving DecidableEq, Repr

namespace Entry

variable {V : Type}

/-- An entry that holds no value yet. -/
def placeholder (id : Nat) : Entry V := ⟨id, none⟩

/-- An entry that holds `value`. -/
def resolved (id : Nat) (value : V) : Entry V := ⟨id, some value⟩

/-- Whether the entry holds no value. -/
def isPlaceholder (e : Entry V) : Bool := e.value.isNone

/-- The values of the resolved entries, placeholders left out. -/
def values (es : List (Entry V)) : List V := es.filterMap Entry.value

/-- How an entry shows itself: only whether it is a placeholder. -/
def describe (e : Entry V) : String :=
  "Entry \x7b placeholder: " ++ (if e.isPlaceholder then "true" else "false") ++ " \x7d"

end Entry

end GenerationalCache
