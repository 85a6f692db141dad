import GenerationalCache.Reason

/-!
# Batches and their delivery

Values leave the cache in batches of one reason. A batch that would be empty is not made. Every
batch goes to every listener, batch after batch and, for one batch, in the order in which the
listeners were registered.
-/

namespace GenerationalCache

variable {V : Type}

/-- Values that left together, and why. -/
structure Batch (V : Type) where
  /-- The values that left. -/
  values : List V
  /-- Why they left. -/
  reason : Reason
  deriving DecidableEq, Repr

/-- One call of one listener. -/
structure Delivery (V : Type) where
  /-- The place of the listener in the order of registration. -/
  listener : Nat
  /-- What it is told. -/
  batch : Batch V
  deriving DecidableEq, Repr

/-- The batch of these values, or none when there is no value. -/
def Batch.ofValues (values : List V) (reason : Reason) : List (Batch V) :=
  if values.isEmpty then [] else [⟨values, reason⟩]

/-- The calls that hand one batch to each of `listeners` listeners. -/
def Batch.deliveries (listeners : Nat) (batch : Batch V) : List (Delivery V) :=
  (List.range listeners).map fun l => ⟨l, batch⟩

/-- The calls that hand a sequence of batches to each of `listeners` listeners. -/
def deliveries (listeners : Nat) (batches : List (Batch V)) : List (Delivery V) :=
  batches.flatMap (Batch.deliveries listeners)

end GenerationalCache
