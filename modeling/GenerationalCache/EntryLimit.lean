/-!
# The entry limit

A cache may hold a bounded number of keys over all its generations, or any number. Two configured
sizes stand for "any number": zero and the largest size there is.
-/

namespace GenerationalCache

/-- How many keys a cache may hold. -/
inductive EntryLimit where
  /-- Any number. -/
  | unbounded
  /-- At most `count`, which is at least one. -/
  | atMost (count : Nat) (positive : 0 < count)
  deriving DecidableEq, Repr

namespace EntryLimit

/-- The limit that a configured size stands for. -/
def ofSize (size : UInt64) : EntryLimit :=
  if h : size.toNat = 0 ∨ size = UInt64.ofNat (UInt64.size - 1) then
    unbounded
  else
    atMost size.toNat (by omega)

/-- Whether `n` keys are too many. -/
def exceededBy : EntryLimit → Nat → Bool
  | unbounded, _ => false
  | atMost count _, n => count < n

@[simp] theorem exceededBy_unbounded (n : Nat) : unbounded.exceededBy n = false := rfl

@[simp] theorem exceededBy_atMost (count n : Nat) (h : 0 < count) :
    (atMost count h).exceededBy n = decide (count < n) := rfl

/-- A single key fits any limit. -/
theorem exceededBy_of_le_one (limit : EntryLimit) {n : Nat} (h : n ≤ 1) :
    limit.exceededBy n = false := by
  cases limit with
  | unbounded => rfl
  | atMost count positive => simp; omega

end EntryLimit

end GenerationalCache
