/-!
# The three generations

A key lives in one of three recency tiers. Being looked up or stored puts it into the first; every
rotation moves it one further, and out of the last.
-/

namespace GenerationalCache

/-- A recency tier. -/
inductive Generation where
  /-- Touched since the last rotation. -/
  | primary
  /-- Not touched since the last rotation. -/
  | secondary
  /-- Not touched for two rotations; the next one evicts it. -/
  | tertiary
  deriving DecidableEq, Repr, Inhabited

namespace Generation

/-- The generations from the youngest to the oldest. -/
def all : List Generation := [.primary, .secondary, .tertiary]

/-- How many rotations ago a key of this generation was last touched. -/
def age : Generation → Nat
  | primary => 0
  | secondary => 1
  | tertiary => 2

/-- The name under which a generation is reported. -/
def name : Generation → String
  | primary => "Primary"
  | secondary => "Secondary"
  | tertiary => "Tertiary"

/-- The generation with a given name. -/
def ofName? (text : String) : Option Generation :=
  all.find? fun g => g.name == text

end Generation

end GenerationalCache
