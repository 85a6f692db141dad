import GenerationalCache.Text.Quoted

/-!
# Configurations

The settings of a cache as they come from outside, for instance from the configuration file of a
server. What is left out has a default.
-/

namespace GenerationalCache

/-- Settings of a cache. -/
structure Config where
  /-- How many keys each table is made for. -/
  initialSize : UInt64 := 50
  /-- How many keys the cache may hold; zero and the largest number stand for any number. -/
  maxSize : UInt64 := 25000
  /-- The timeout, as people write durations. -/
  timeout : String := "10m"
  deriving DecidableEq, Repr

namespace Config

/-- The settings that apply when nothing is configured. -/
def standard : Config := {}

/-- How a configuration shows itself. -/
def describe (c : Config) : String :=
  Text.record "CacheConfig"
    [("initial_size", toString c.initialSize), ("max_size", toString c.maxSize),
     ("timeout", Text.quoted c.timeout)]

end Config

end GenerationalCache
