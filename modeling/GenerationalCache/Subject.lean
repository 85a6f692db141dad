import GenerationalCache.Sorted
import GenerationalCache.Text.Quoted

/-!
# Subjects

A subject is the answer to an authentication: who the caller is, and what it presented. Subjects are
what the cache is there to remember.
-/

namespace GenerationalCache

/-- A resolved security subject. -/
structure Subject where
  /-- The names of the caller. -/
  principals : TextSet := .empty
  /-- Credentials that anybody may see. -/
  publicCredentials : TextMap := .empty
  /-- Credentials that only the holder may see. -/
  privateCredentials : TextMap := .empty
  /-- Whether the subject is closed to changes. -/
  readOnly : Bool := false
  deriving DecidableEq

namespace Subject

/-- Adds a principal. -/
def withPrincipal (s : Subject) (name : String) : Subject :=
  { s with principals := s.principals.insert name }

/-- Gives a public credential its value. -/
def withPublicCredential (s : Subject) (name value : String) : Subject :=
  { s with publicCredentials := s.publicCredentials.insert name value }

/-- Gives a private credential its value. -/
def withPrivateCredential (s : Subject) (name value : String) : Subject :=
  { s with privateCredentials := s.privateCredentials.insert name value }

/-- Closes the subject to changes. -/
def closed (s : Subject) : Subject := { s with readOnly := true }

/-- How a subject shows itself. -/
def describe (s : Subject) : String :=
  Text.record "Subject"
    [("principals", Text.quotedSet s.principals.items),
     ("public_credentials", Text.quotedMap s.publicCredentials.pairs),
     ("private_credentials", Text.quotedMap s.privateCredentials.pairs),
     ("read_only", Text.truth s.readOnly)]

end Subject

end GenerationalCache
