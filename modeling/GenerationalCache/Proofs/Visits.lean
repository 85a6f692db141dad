import GenerationalCache.Local.Operations
import GenerationalCache.Proofs.Slots
import Mathlib.Data.List.Induction

/-!
# Visits

However many clients a local cache has, and whatever its listeners do from inside a call, its state
changes only in critical sections, one after the other. A visit is one of them: the operation whose
critical section ran, and the cache it found. Everything the operation then does is settled by that:
the cache it left, the batches it has to report, and its answer.

A chronicle is a sequence of visits in which each finds what the one before it left. What is true of
a cache after every chronicle is true of it at every moment of every use.
-/

namespace GenerationalCache

/-- An operation, with its arguments. -/
inductive Call (K V : Type) where
  /-- Looks a key up. -/
  | lookup (k : K)
  /-- Gets the value under a key. -/
  | get (k : K)
  /-- Stores a value. -/
  | insert (k : K) (v : V)
  /-- Removes a key. -/
  | remove (k : K)
  /-- Removes every key. -/
  | clear
  /-- Rotates the generations once. -/
  | evictStale
  /-- Asks whether the cache holds more keys than it may. -/
  | evictionRequired

variable {σ K V : Type}

namespace Call

/-- What an operation answers with. -/
def Answer : Call K V → Type
  | lookup _ => Except CacheFailure (Entry V)
  | get _ => Except CacheFailure (Option V)
  | insert _ _ => Except CacheFailure Unit
  | remove _ => Except CacheFailure Bool
  | clear => Except CacheFailure Unit
  | evictStale => Unit
  | evictionRequired => Bool

/-- The operation looks the key up. -/
def LooksUp (k : K) : Call K V → Prop
  | lookup k' | get k' => k' = k
  | _ => False

/-- The operation stores a value under the key. -/
def Stores (k : K) : Call K V → Prop
  | insert k' _ => k' = k
  | _ => False

/-- The operation looks the key up or stores a value under it. -/
def Touches (k : K) (c : Call K V) : Prop := c.LooksUp k ∨ c.Stores k

/-- The operation removes the key, alone or with all others. -/
def Discards (k : K) : Call K V → Prop
  | remove k' => k' = k
  | clear => True
  | _ => False

/-- The value that the operation stores, if it stores one. -/
def stored? : Call K V → Option V
  | insert _ v => some v
  | _ => none

/-- The operation looks a key up. -/
def isLookup : Call K V → Bool
  | lookup _ | get _ => true
  | _ => false

/-- The operation stores a value. -/
def isInsert : Call K V → Bool
  | insert _ _ => true
  | _ => false

/-- The operation rotates the generations without being short of room. -/
def isSweep : Call K V → Bool
  | evictStale => true
  | _ => false

theorem LooksUp.not_stores {k : K} {c : Call K V} (h : c.LooksUp k) : ¬ c.Stores k := by
  cases c with
  | lookup | get => exact id
  | _ => exact h.elim

theorem Discards.not_touches {k : K} {c : Call K V} (h : c.Discards k) : ¬ c.Touches k := by
  rintro (hl | hs)
  · cases c with
    | lookup | get => exact h
    | _ => exact hl
  · cases c with
    | insert => exact h
    | _ => exact hs

end Call

/-- What a call of an operation does. -/
def Operations.program (ops : Operations σ K V) : (c : Call K V) → Program σ K V c.Answer
  | .lookup k => ops.lookup k
  | .get k => ops.get k
  | .insert k v => ops.insert k v
  | .remove k => ops.remove k
  | .clear => ops.clear
  | .evictStale => ops.evictStale
  | .evictionRequired => ops.evictionRequired

variable [Ord K]

/-- The critical section of an operation. -/
structure Visit (K V : Type) [Ord K] where
  /-- The operation. -/
  call : Call K V
  /-- The cache as the critical section found it. -/
  found : LocalCache K V

namespace Visit

/-- The cache as the critical section left it. -/
def left (v : Visit K V) : LocalCache K V :=
  match v.call with
  | .lookup k | .get k => (v.found.lookup k).2
  | .insert k x => (v.found.insert k x).2
  | .remove k => (v.found.remove k).2
  | .clear => v.found.clear.2
  | .evictStale => v.found.rotate.2
  | .evictionRequired => v.found

/-- The batches that the operation has to report, in order. -/
def batches (v : Visit K V) : List (Batch V) :=
  match v.call with
  | .insert k x => (v.found.insert k x).1.batches
  | .remove k => Batch.ofValues ((v.found.remove k).1.bind Entry.value).toList .invalidated
  | .clear => Batch.ofValues (Entry.values v.found.clear.1) .invalidated
  | .evictStale => v.found.rotate.1.batches .expired
  | _ => []

/-- The answer of the operation. -/
def answer : (v : Visit K V) → v.call.Answer
  | ⟨.lookup k, c⟩ => .ok (c.lookup k).1
  | ⟨.get k, c⟩ => .ok (c.lookup k).1.value
  | ⟨.insert _ _, _⟩ => .ok ()
  | ⟨.remove k, c⟩ => .ok (c.remove k).1.isSome
  | ⟨.clear, _⟩ => .ok ()
  | ⟨.evictStale, _⟩ => ()
  | ⟨.evictionRequired, c⟩ => c.evictionRequired

/-- How often the critical section rotated the generations. -/
def rotations (v : Visit K V) : Nat :=
  match v.call with
  | .insert k x => (v.found.insert k x).1.rotations.length
  | .evictStale => 1
  | _ => 0

/-- The rotations of the critical section, in order. -/
def rotationsMade (v : Visit K V) : List (Rotation V) :=
  match v.call with
  | .insert k x => (v.found.insert k x).1.rotations
  | .evictStale => [v.found.rotate.1]
  | _ => []

end Visit

/-- How often a sequence of visits rotated the generations. -/
def rotationsIn : List (Visit K V) → Nat
  | [] => 0
  | v :: h => v.rotations + rotationsIn h

@[simp] theorem rotationsIn_append (h₁ h₂ : List (Visit K V)) :
    rotationsIn (h₁ ++ h₂) = rotationsIn h₁ + rotationsIn h₂ := by
  induction h₁ with
  | nil => exact (Nat.zero_add _).symm
  | cons v h₁ ih => rw [List.cons_append, rotationsIn, rotationsIn, ih, Nat.add_assoc]

@[simp] theorem rotationsIn_singleton (v : Visit K V) : rotationsIn [v] = v.rotations := rfl

/-- The visits lead from one cache to another: each finds what the one before it left. -/
inductive Chronicle (start : LocalCache K V) : List (Visit K V) → LocalCache K V → Prop where
  /-- Without a visit nothing changes. -/
  | nil : Chronicle start [] start
  /-- One more visit, of the cache that the others left. -/
  | snoc {h : List (Visit K V)} (v : Visit K V) (earlier : Chronicle start h v.found) :
      Chronicle start (h ++ [v]) v.left

namespace Chronicle

variable {a c : LocalCache K V} {h h₁ h₂ : List (Visit K V)} {v : Visit K V}

theorem of_snoc (hc : Chronicle a (h ++ [v]) c) : Chronicle a h v.found ∧ c = v.left := by
  generalize he : h ++ [v] = h' at hc
  cases hc with
  | nil => simp at he
  | snoc w hw =>
      obtain ⟨rfl, hvw⟩ := List.append_inj' he rfl
      obtain rfl : v = w := by simpa using hvw
      exact ⟨hw, rfl⟩

/-- A chronicle may be cut anywhere. -/
theorem split (hc : Chronicle a (h₁ ++ h₂) c) :
    ∃ b, Chronicle a h₁ b ∧ Chronicle b h₂ c := by
  induction h₂ using List.reverseRecOn generalizing c with
  | nil => exact ⟨c, by simpa using hc, .nil⟩
  | append_singleton h₂ v ih =>
      rw [← List.append_assoc] at hc
      obtain ⟨hv, rfl⟩ := hc.of_snoc
      obtain ⟨b, hb, hbv⟩ := ih hv
      exact ⟨b, hb, hbv.snoc v⟩

/-- A chronicle cut at one of its visits. -/
theorem split_at (hc : Chronicle a (h₁ ++ v :: h₂) c) :
    Chronicle a h₁ v.found ∧ Chronicle v.left h₂ c := by
  obtain ⟨b, hb, hbc⟩ := (show Chronicle a ((h₁ ++ [v]) ++ h₂) c by simpa using hc).split
  obtain ⟨hv, rfl⟩ := hb.of_snoc
  exact ⟨hv, hbc⟩

/-- Every visit found what the visits before it had left. -/
theorem of_mem (hc : Chronicle a h c) (hv : v ∈ h) :
    ∃ earlier later, h = earlier ++ v :: later ∧ Chronicle a earlier v.found := by
  obtain ⟨earlier, later, rfl⟩ := List.append_of_mem hv
  exact ⟨earlier, later, rfl, hc.split_at.1⟩

end Chronicle

/-! ## What one visit does to the tables -/

namespace Visit

variable [Std.TransOrd K] [Std.LawfulEqOrd K]

/-- Every visit keeps keys in one table. -/
theorem unique_left {v : Visit K V} (h : v.found.tables.Unique) : v.left.tables.Unique := by
  obtain ⟨call, c⟩ := v
  cases call with
  | lookup k | get k => exact h.lookup k _
  | insert k x => exact (h.makeRoom c.limit k).insert k _
  | remove k => exact h.remove k
  | clear => exact Tables.unique_empty
  | evictStale => exact h.rotate
  | evictionRequired => exact h

/-- What a visit does to the slot of a key. -/
inductive Effect (v : Visit K V) (k : K) : Prop where
  /-- A lookup finds the entry there or reserves a placeholder. -/
  | lookedUp (looksUp : v.call.LooksUp k) (slot : v.left.tables.slot k =
      some (.primary, (v.found.tables.find? k).getD (.placeholder v.found.nextId)))
  /-- An insert puts a new entry there. -/
  | stored (x : V) (call : v.call = .insert k x) (slot : v.left.tables.slot k =
      some (.primary, .resolved v.found.nextId x))
  /-- A removal empties it. -/
  | discarded (discards : v.call.Discards k) (slot : v.left.tables.slot k = none)
  /-- Any other visit makes it older by the rotations that it performs. -/
  | quiet (untouched : ¬ v.call.Touches k) (kept : ¬ v.call.Discards k)
      (slot : v.left.tables.slot k = Tables.aged v.rotations (v.found.tables.slot k))

/-- **A visit does one of four things to the slot of a key.** -/
theorem effect {v : Visit K V} (h : v.found.tables.Unique) (k : K) : v.Effect k := by
  obtain ⟨call, c⟩ := v
  cases call with
  | lookup k' | get k' =>
      by_cases hk : k' = k
      · subst hk
        exact .lookedUp rfl (Tables.slot_lookup_self _ _ _)
      · refine .quiet ?_ id ?_
        · simpa [Call.Touches, Call.LooksUp, Call.Stores] using hk
        · exact (Tables.slot_lookup_of_ne _ (Ne.symm hk)).trans (Tables.aged_zero _).symm
  | insert k' x =>
      by_cases hk : k' = k
      · -- its own rotations come before the new entry, which stays in the primary table
        subst hk
        exact .stored x rfl (Tables.slot_insert_self _ _ _)
      · refine .quiet ?_ id ?_
        · simpa [Call.Touches, Call.LooksUp, Call.Stores] using hk
        · exact (Tables.slot_insert_of_ne _ (Ne.symm hk)).trans (Tables.slot_makeRoom _ _ _ _)
  | remove k' =>
      by_cases hk : k' = k
      · subst hk
        exact .discarded rfl (Tables.slot_remove_self h _)
      · refine .quiet ?_ hk ?_
        · simp [Call.Touches, Call.LooksUp, Call.Stores]
        · exact (Tables.slot_remove_of_ne (Ne.symm hk)).trans (Tables.aged_zero _).symm
  | clear => exact .discarded trivial (Tables.slot_empty k)
  | evictStale =>
      refine .quiet ?_ id (Tables.slot_rotate _ _)
      simp [Call.Touches, Call.LooksUp, Call.Stores]
  | evictionRequired =>
      refine .quiet ?_ id (Tables.aged_zero _).symm
      simp [Call.Touches, Call.LooksUp, Call.Stores]

/-- After a touch the key is in the primary generation. -/
theorem slot_left_of_touches {v : Visit K V} (h : v.found.tables.Unique) {k : K}
    (ht : v.call.Touches k) : ∃ e, v.left.tables.slot k = some (.primary, e) := by
  cases effect h k with
  | lookedUp _ hs => exact ⟨_, hs⟩
  | stored x _ hs => exact ⟨_, hs⟩
  | discarded hd _ => exact absurd ht hd.not_touches
  | quiet hn _ _ => exact absurd ht hn

/-- After a removal the key is gone. -/
theorem slot_left_of_discards {v : Visit K V} (h : v.found.tables.Unique) {k : K}
    (hd : v.call.Discards k) : v.left.tables.slot k = none := by
  cases effect h k with
  | lookedUp hl _ => exact absurd (.inl hl) hd.not_touches
  | stored x hi _ =>
      rw [hi] at hd
      exact hd.elim
  | discarded _ hs => exact hs
  | quiet _ hn _ => exact absurd hd hn

/-- A visit that neither touches nor removes a key makes it older by its rotations. -/
theorem slot_left_of_quiet {v : Visit K V} (h : v.found.tables.Unique) {k : K}
    (ht : ¬ v.call.Touches k) (hd : ¬ v.call.Discards k) :
    v.left.tables.slot k = Tables.aged v.rotations (v.found.tables.slot k) := by
  cases effect h k with
  | lookedUp hl _ => exact absurd (.inl hl) ht
  | stored x hi _ =>
      refine absurd (.inr ?_) ht
      rw [hi]
      rfl
  | discarded hd' _ => exact absurd hd' hd
  | quiet _ _ hs => exact hs

end Visit

/-- Keys stay in one table. -/
theorem Chronicle.unique [Std.TransOrd K] [Std.LawfulEqOrd K] {a c : LocalCache K V}
    {h : List (Visit K V)} (hc : Chronicle a h c) (ha : a.tables.Unique) : c.tables.Unique := by
  induction hc with
  | nil => exact ha
  | snoc v _ ih => exact Visit.unique_left ih

end GenerationalCache
