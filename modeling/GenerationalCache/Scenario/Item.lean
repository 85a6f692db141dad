import GenerationalCache.AuthResult
import GenerationalCache.Wire.Format

/-!
# What scenarios cache

A scenario caches texts, subjects or authentication results. A local cache hands out the very result
that was stored, so that a key added to it later shows wherever it is cached; there a result is cached
by reference. A distributed cache keeps bytes and makes a new result of them each time.
-/

namespace GenerationalCache.Scenario

/-- A cached value, as it is at one instant. -/
inductive Content where
  | text (s : String)
  | subject (s : Subject)
  | result (r : AuthResult String)
  deriving DecidableEq

namespace Content

/-- The bytes by which contents are ordered: the bare bytes of a text, and otherwise the bytes that a
provider would be given. -/
def orderBytes : Content → Bytes
  | text s => Text.Utf8.encode s
  | subject s => Wire.Format.subject.encode s
  | result r => (Wire.Format.authResult Wire.Format.text).encode r

/-- The word that stands for a content in reactions: a text itself, or the first principal. -/
def tag : Content → String
  | text s => s
  | subject s | result ⟨s, _⟩ => s.principals.items.headD ""

/-- Contents in ascending order of their bytes. -/
def sort (contents : List Content) : List Content :=
  let keyed := contents.map fun c => (c.orderBytes, c)
  (keyed.mergeSort fun a b => decide (a.1 ≤ b.1)).map Prod.snd

end Content

/-- A value as it lies in a cache: by itself, or a reference to a result that may still change. -/
inductive Item where
  | own (content : Content)
  | shared (object : Nat)
  deriving DecidableEq

end GenerationalCache.Scenario
