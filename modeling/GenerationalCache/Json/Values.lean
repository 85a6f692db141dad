import GenerationalCache.AuthResult
import GenerationalCache.Config
import GenerationalCache.Json.Shape

/-!
# Configurations and cached values as structured values

The shapes from which configurations, subjects and authentication results are taken, and the
structured values that show them.
-/

namespace GenerationalCache

open Json (Misfit Field RecordShape)

/-! ## Configurations -/

/-- A configuration of which each setting may still be open. -/
structure Config.Draft where
  /-- How many keys each table is made for. -/
  initialSize : Option UInt64 := none
  /-- How many keys the cache may hold. -/
  maxSize : Option UInt64 := none
  /-- The timeout, as people write durations. -/
  timeout : Option String := none

/-- The configuration of a draft: what is open has its default. -/
def Config.Draft.finish (d : Config.Draft) : Config where
  initialSize := d.initialSize.getD Config.standard.initialSize
  maxSize := d.maxSize.getD Config.standard.maxSize
  timeout := d.timeout.getD Config.standard.timeout

/-- The shape of a configuration. -/
def Config.shape : RecordShape Config.Draft Config where
  expected := "struct CacheConfig"
  fields :=
    [⟨"initialSize", fun j d => do return { d with initialSize := some (← Json.takeWord "usize" j) }⟩,
     ⟨"maxSize", fun j d => do return { d with maxSize := some (← Json.takeWord "usize" j) }⟩,
     ⟨"timeout", fun j d => do return { d with timeout := some (← Json.takeText j) }⟩]
  blank := {}
  finish d := .ok d.finish
  optional := true

/-- Takes a configuration from a structured value. -/
def Config.ofJson (j : Json) : Except Misfit Config := Config.shape.take j

/-- A configuration as a structured value. -/
def Config.toJson (c : Config) : Json :=
  .ofFields [("initialSize", .word c.initialSize), ("maxSize", .word c.maxSize),
    ("timeout", .text c.timeout)]

/-! ## Subjects -/

/-- A subject of which each part may still be open. -/
structure Subject.Draft where
  /-- The names of the caller. -/
  principals : Option TextSet := none
  /-- Credentials that anybody may see. -/
  publicCredentials : Option TextMap := none
  /-- Credentials that only the holder may see. -/
  privateCredentials : Option TextMap := none
  /-- Whether the subject is closed to changes. -/
  readOnly : Option Bool := none

/-- The subject of a draft, in which nothing may be open. -/
def Subject.Draft.finish (d : Subject.Draft) : Except Misfit Subject := do
  return {
    principals := ← Json.require "principals" d.principals
    publicCredentials := ← Json.require "public_credentials" d.publicCredentials
    privateCredentials := ← Json.require "private_credentials" d.privateCredentials
    readOnly := ← Json.require "read_only" d.readOnly }

/-- The shape of a subject. -/
def Subject.shape : RecordShape Subject.Draft Subject where
  expected := "struct Subject"
  fields :=
    [⟨"principals", fun j d => do return { d with principals := some (← Json.takeTextSet j) }⟩,
     ⟨"public_credentials", fun j d => do
        return { d with publicCredentials := some (← Json.takeTextMap j) }⟩,
     ⟨"private_credentials", fun j d => do
        return { d with privateCredentials := some (← Json.takeTextMap j) }⟩,
     ⟨"read_only", fun j d => do return { d with readOnly := some (← Json.takeBool j) }⟩]
  blank := {}
  finish := Subject.Draft.finish
  optional := false

/-- Takes a subject from a structured value. -/
def Subject.ofJson (j : Json) : Except Misfit Subject := Subject.shape.take j

/-- A map from texts to texts as a structured value. -/
def TextMap.toJson (m : TextMap) : Json := .ofFields (m.pairs.map fun p => (p.1, .text p.2))

/-- A subject as a structured value. -/
def Subject.toJson (s : Subject) : Json :=
  .ofFields [("principals", .array (s.principals.items.map .text)),
    ("public_credentials", s.publicCredentials.toJson),
    ("private_credentials", s.privateCredentials.toJson),
    ("read_only", .bool s.readOnly)]

/-! ## Authentication results -/

/-- An authentication result of which each part may still be open. -/
structure AuthResult.Draft (K : Type) where
  /-- Who was authenticated. -/
  subject : Option Subject := none
  /-- The keys under which that is cached. -/
  lookupKeys : Option (List K) := none

/-- The result of a draft, in which nothing may be open. -/
def AuthResult.Draft.finish {K : Type} (d : AuthResult.Draft K) :
    Except Misfit (AuthResult K) := do
  return {
    subject := ← Json.require "subject" d.subject
    lookupKeys := ← Json.require "lookup_keys" d.lookupKeys }

/-- The shape of an authentication result, given how a key is taken. -/
def AuthResult.shape {K : Type} (key : Json → Except Misfit K) :
    RecordShape (AuthResult.Draft K) (AuthResult K) where
  expected := "struct CacheObjectOwned"
  fields :=
    [⟨"subject", fun j d => do return { d with subject := some (← Subject.ofJson j) }⟩,
     ⟨"lookup_keys", fun j d => do return { d with lookupKeys := some (← Json.takeList key j) }⟩]
  blank := {}
  finish := AuthResult.Draft.finish
  optional := false

/-- Takes an authentication result from a structured value, given how a key is taken. -/
def AuthResult.ofJson {K : Type} (key : Json → Except Misfit K) (j : Json) :
    Except Misfit (AuthResult K) :=
  (AuthResult.shape key).take j

/-- An authentication result as a structured value, given how a key is shown. -/
def AuthResult.toJson {K : Type} (r : AuthResult K) (key : K → Json) : Json :=
  .ofFields [("subject", r.subject.toJson), ("lookup_keys", .array (r.lookupKeys.map key))]

end GenerationalCache
