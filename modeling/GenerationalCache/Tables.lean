import GenerationalCache.Entry
import GenerationalCache.EntryLimit
import GenerationalCache.Generation
import Std.Data.TreeMap

/-!
# The generation tables

Three tables hold the entries by recency. A lookup or a store moves its key into the primary table;
a rotation makes the primary table the secondary one, the secondary one the tertiary one, and drops
what the tertiary one held. No operation lets a key into two tables, which is why each of them may
stop at the first table that has the key.

An insert under an entry limit first makes room: it rotates while the key that is to come would be
one too many. Three rotations empty every table, and a single key fits any limit, so three are
always enough.
-/

namespace GenerationalCache

variable {K V : Type} [Ord K]

/-- One generation: entries by key. -/
abbrev Table (K V : Type) [Ord K] : Type := Std.TreeMap K (Entry V)

/-- How many keys the three generations hold. -/
structure Sizes where
  /-- Keys in the primary generation. -/
  primary : Nat
  /-- Keys in the secondary generation. -/
  secondary : Nat
  /-- Keys in the tertiary generation. -/
  tertiary : Nat
  deriving DecidableEq, Repr

/-- Keys over all generations. -/
def Sizes.total (s : Sizes) : Nat := s.primary + s.secondary + s.tertiary

/-- Keys in one generation. -/
def Sizes.get (s : Sizes) : Generation → Nat
  | .primary => s.primary
  | .secondary => s.secondary
  | .tertiary => s.tertiary

/-- The three generations of a local cache. -/
structure Tables (K V : Type) [Ord K] where
  /-- Keys touched since the last rotation. -/
  primary : Table K V
  /-- Keys touched before the last rotation and since the one before. -/
  secondary : Table K V
  /-- Keys that the next rotation drops unless they are touched. -/
  tertiary : Table K V

/-- What one rotation did. -/
structure Rotation (V : Type) where
  /-- The sizes it found. -/
  before : Sizes
  /-- The values it dropped; placeholders leave without a trace. -/
  victims : List V
  deriving Repr

namespace Tables

/-- No keys at all. -/
def empty : Tables K V := ⟨∅, ∅, ∅⟩

/-- The sizes of the three tables. -/
def sizes (t : Tables K V) : Sizes := ⟨t.primary.size, t.secondary.size, t.tertiary.size⟩

/-- The number of keys, placeholders included. -/
def size (t : Tables K V) : Nat := t.sizes.total

/-- The youngest generation that holds the key. -/
def generationOf? (t : Tables K V) (k : K) : Option Generation :=
  if t.primary.contains k then some .primary
  else if t.secondary.contains k then some .secondary
  else if t.tertiary.contains k then some .tertiary
  else none

/-- The entry that the key has in the youngest generation that holds it. -/
def find? (t : Tables K V) (k : K) : Option (Entry V) :=
  (t.primary[k]?.or t.secondary[k]?).or t.tertiary[k]?

/-- Every entry, the youngest generation first. -/
def entries (t : Tables K V) : List (Entry V) :=
  t.primary.values ++ t.secondary.values ++ t.tertiary.values

/-- Takes the key out of the first of the two older generations that has it. -/
def takeOlder (t : Tables K V) (k : K) : Option (Entry V) × Tables K V :=
  match t.secondary[k]? with
  | some e => (some e, { t with secondary := t.secondary.erase k })
  | none =>
    match t.tertiary[k]? with
    | some e => (some e, { t with tertiary := t.tertiary.erase k })
    | none => (none, t)

/-- Puts an entry into the primary generation. -/
def putPrimary (t : Tables K V) (k : K) (e : Entry V) : Tables K V :=
  { t with primary := t.primary.insert k e }

/-- Finds the entry of a key and brings it into the primary generation. When no generation has the
key, the entry `fresh` is reserved for it. -/
def lookup (t : Tables K V) (k : K) (fresh : Entry V) : Entry V × Tables K V :=
  match t.primary[k]? with
  | some e => (e, t)
  | none =>
    let (older, rest) := t.takeOlder k
    let e := older.getD fresh
    (e, rest.putPrimary k e)

/-- Puts an entry into the primary generation and returns the one it displaces there or in an older
generation. -/
def insert (t : Tables K V) (k : K) (e : Entry V) : Option (Entry V) × Tables K V :=
  let (older, rest) := t.takeOlder k
  (rest.primary[k]?.or older, rest.putPrimary k e)

/-- Takes a key out and returns its entry. -/
def remove (t : Tables K V) (k : K) : Option (Entry V) × Tables K V :=
  match t.primary[k]? with
  | some e => (some e, { t with primary := t.primary.erase k })
  | none => t.takeOlder k

/-- Moves every generation one down and drops the oldest. -/
def rotate (t : Tables K V) : Rotation V × Tables K V :=
  ({ before := t.sizes, victims := Entry.values t.tertiary.values },
   { primary := ∅, secondary := t.primary, tertiary := t.secondary })

/-- The number of keys once `k` is stored. -/
def sizeWith (t : Tables K V) (k : K) : Nat :=
  t.size + if (t.generationOf? k).isNone then 1 else 0

/-- Rotates while `k` would be one key too many, at most `steps` times. -/
def makeRoomWithin (limit : EntryLimit) (k : K) :
    Nat → Tables K V → List (Rotation V) × Tables K V
  | 0, t => ([], t)
  | steps + 1, t =>
    if limit.exceededBy (t.sizeWith k) then
      let (rotation, rotated) := t.rotate
      let (rotations, roomy) := makeRoomWithin limit k steps rotated
      (rotation :: rotations, roomy)
    else
      ([], t)

/-- Rotates until `k` can be stored within the limit. Three rotations leave nothing to drop. -/
def makeRoom (t : Tables K V) (limit : EntryLimit) (k : K) : List (Rotation V) × Tables K V :=
  makeRoomWithin limit k 3 t

end Tables

end GenerationalCache
