import Std.Data.TreeMap

/-!
# Sorted sets and maps of texts

A subject's names and credentials come in no particular order and are kept in one: ascending, which
for texts is the order of their code points and also that of their bytes. Since the order is part of
the type, two sets with the same members are equal, and likewise two maps.
-/

namespace GenerationalCache

/-- A set of texts: its members in strictly ascending order. -/
structure TextSet where
  /-- The members. -/
  items : List String
  /-- Every member is less than those after it. -/
  ascending : items.Pairwise fun a b => compare a b = .lt
  deriving DecidableEq

/-- A map from texts to texts: its pairs in strictly ascending order of the keys. -/
structure TextMap where
  /-- The keys with their values. -/
  pairs : List (String × String)
  /-- Every key is less than those after it. -/
  ascending : pairs.Pairwise fun a b => compare a.1 b.1 = .lt
  deriving DecidableEq

/-- Puts a pair into an ascending list, over the pair with the same key if there is one. -/
def insertAscending {α : Type} (key : α → String) (x : α) : List α → List α
  | [] => [x]
  | y :: ys =>
    match compare (key x) (key y) with
    | .lt => x :: y :: ys
    | .eq => x :: ys
    | .gt => y :: insertAscending key x ys

variable {α : Type} {key : α → String}

theorem mem_insertAscending {x y : α} {ys : List α} (h : y ∈ insertAscending key x ys) :
    y = x ∨ y ∈ ys := by
  induction ys with
  | nil => simpa [insertAscending] using h
  | cons z zs ih =>
    unfold insertAscending at h
    split at h
    · simpa using h
    · rcases List.mem_cons.1 h with h | h
      · exact .inl h
      · exact .inr (List.mem_cons_of_mem _ h)
    · rcases List.mem_cons.1 h with h | h
      · exact .inr (h ▸ List.mem_cons_self)
      · exact (ih h).imp_right (List.mem_cons_of_mem _)

/-- An insert keeps an ascending list ascending. -/
theorem pairwise_insertAscending (x : α) {ys : List α}
    (h : ys.Pairwise fun a b => compare (key a) (key b) = .lt) :
    (insertAscending key x ys).Pairwise fun a b => compare (key a) (key b) = .lt := by
  induction ys with
  | nil => simp [insertAscending]
  | cons y ys ih =>
    have hys := (List.pairwise_cons.1 h).1
    unfold insertAscending
    split
    · next hlt =>
      refine List.pairwise_cons.2 ⟨fun z hz => ?_, h⟩
      rcases List.mem_cons.1 hz with hz | hz
      · exact hz ▸ hlt
      · exact Std.TransCmp.lt_trans hlt (hys z hz)
    · next heq =>
      have : key x = key y := Std.LawfulEqCmp.eq_of_compare heq
      exact List.pairwise_cons.2 ⟨fun z hz => this ▸ hys z hz, (List.pairwise_cons.1 h).2⟩
    · next hgt =>
      refine List.pairwise_cons.2 ⟨fun z hz => ?_, ih (List.pairwise_cons.1 h).2⟩
      rcases mem_insertAscending hz with hz | hz
      · exact hz ▸ Std.OrientedCmp.gt_iff_lt.1 hgt
      · exact hys z hz

namespace TextSet

/-- The set without members. -/
def empty : TextSet := ⟨[], .nil⟩

/-- Adds a member. -/
def insert (s : TextSet) (x : String) : TextSet :=
  ⟨insertAscending id x s.items, pairwise_insertAscending x s.ascending⟩

/-- The set of the members of a list. -/
def ofList (xs : List String) : TextSet := xs.foldl insert empty

end TextSet

namespace TextMap

/-- The map without keys. -/
def empty : TextMap := ⟨[], .nil⟩

/-- Gives a key a value, instead of the one it had. -/
def insert (m : TextMap) (k v : String) : TextMap :=
  ⟨insertAscending Prod.fst (k, v) m.pairs, pairwise_insertAscending (k, v) m.ascending⟩

/-- The map of a list of pairs; of pairs with the same key the last one counts. -/
def ofList (ps : List (String × String)) : TextMap :=
  ps.foldl (fun m p => m.insert p.1 p.2) empty

end TextMap

end GenerationalCache
