import GenerationalCache.Program
import GenerationalCache.Wire.Format

/-!
# Values across the boundary

Values cross the boundary to a provider as bytes. A serializer may refuse a value or some bytes; the
refusal is logged and the value counts as absent, so that it never reaches the caller of the cache.
-/

namespace GenerationalCache

/-- Turns values into bytes and back. -/
structure Serializer (V : Type) where
  /-- The bytes of a value. -/
  serialize : V → Except CacheFailure Bytes
  /-- The value of some bytes. -/
  deserialize : Bytes → Except CacheFailure V

namespace Serializer

variable {V : Type}

/-- The bytes of a value, or none and a line of the log. -/
def encode (s : Serializer V) (value : V) : Option Bytes × List LogEvent :=
  match s.serialize value with
  | .ok bytes => (some bytes, [])
  | .error failure => (none, [.serializationFailed failure])

/-- The value of some bytes, or none and a line of the log. Absent bytes hold no value and are
nothing to log. -/
def decode (s : Serializer V) : Option Bytes → Option V × List LogEvent
  | none => (none, [])
  | some bytes =>
    match s.deserialize bytes with
    | .ok value => (some value, [])
    | .error failure => (none, [.deserializationFailed failure bytes.length])

/-- The serializer of a byte format. It refuses no value. -/
def ofFormat (f : Wire.Format V) : Serializer V where
  serialize value := .ok (f.encode value)
  deserialize bytes :=
    match f.decode.run bytes with
    | .ok value => .ok value
    | .error failure => .error (.deserialization failure.message)

/-- A serializer that writes a text as its bare bytes. It refuses the empty text. -/
def bareText : Serializer String where
  serialize value :=
    if value.isEmpty then .error (.serialization "empty value") else .ok (Text.Utf8.encode value)
  deserialize bytes :=
    match Text.Utf8.decode bytes with
    | .ok value => .ok value
    | .error failure => .error (.deserialization failure.message)

/-- A serializer of one type used for those values of another that have a counterpart in it. -/
def via {W : Type} (s : Serializer V) (wrap : V → W) (unwrap : W → Except CacheFailure V) :
    Serializer W where
  serialize value := (unwrap value).bind s.serialize
  deserialize bytes := (s.deserialize bytes).map wrap

end Serializer

end GenerationalCache
