import GenerationalCache.Proofs.RoundTrip

/-!
# Bytes that say where they end

A provider may hand bytes back with more behind them, and the reader ignores what is more than a
value. So reading is right only if the bytes of a value tell by themselves where the value ends.
They do: what was written is read back whatever comes after it. Then no two values have the same
bytes, and the bytes of one never begin those of another.

An authentication result is a subject followed by a list, so its format is faithful when that of its
keys is.
-/

namespace GenerationalCache

/-- Whatever has a length in an authentication result fits. -/
structure Wire.AuthResultFits {K : Type} (fits : K → Prop) (r : AuthResult K) : Prop where
  /-- What has a length in the subject. -/
  subject : SubjectFits r.subject
  /-- The keys, and how many there are. -/
  lookupKeys : ListFits fits r.lookupKeys

/-! ## Whether a value fits can be computed -/

namespace Wire

instance (s : String) : Decidable (TextFits s) :=
  inferInstanceAs (Decidable ((Text.Utf8.encode s).length < UInt64.size))

instance (p : String × String) : Decidable (CredentialFits p) :=
  inferInstanceAs (Decidable (TextFits p.1 ∧ TextFits p.2))

instance {α : Type} (fits : α → Prop) [DecidablePred fits] (xs : List α) :
    Decidable (ListFits fits xs) :=
  inferInstanceAs (Decidable (xs.length < UInt64.size ∧ ∀ x ∈ xs, fits x))

instance (s : Subject) : Decidable (SubjectFits s) :=
  decidable_of_iff (ListFits TextFits s.principals.items ∧
      ListFits CredentialFits s.publicCredentials.pairs ∧
      ListFits CredentialFits s.privateCredentials.pairs)
    ⟨fun ⟨h₁, h₂, h₃⟩ => ⟨h₁, h₂, h₃⟩, fun ⟨h₁, h₂, h₃⟩ => ⟨h₁, h₂, h₃⟩⟩

instance {K : Type} (fits : K → Prop) [DecidablePred fits] (r : AuthResult K) :
    Decidable (AuthResultFits fits r) :=
  decidable_of_iff (SubjectFits r.subject ∧ ListFits fits r.lookupKeys)
    ⟨fun ⟨h₁, h₂⟩ => ⟨h₁, h₂⟩, fun ⟨h₁, h₂⟩ => ⟨h₁, h₂⟩⟩

end Wire

/-! ## Reading stops where the value ends -/

/-- **Authentication results are read back**, with their keys in order and repeats kept. -/
theorem Wire.Format.faithful_authResult {K : Type} {keys : Wire.Format K} {fits : K → Prop}
    (hkeys : keys.Faithful fits) : (authResult keys).Faithful (AuthResultFits fits) := by
  have h : (authResult keys).Faithful _ := (faithful_subject.pair hkeys.list).via fun _ => rfl
  exact fun r hr => h r ⟨hr.subject, hr.lookupKeys⟩

namespace Serializer

variable {V : Type}

/-- The bytes of every value that fits say where they end. -/
structure SelfDelimiting (s : Serializer V) (fits : V → Prop) : Prop where
  /-- Every value is written. -/
  writes : ∀ x, ∃ bytes, s.serialize x = .ok bytes
  /-- What is written is read back, whatever comes after it. -/
  reads : ∀ x, fits x → ∀ bytes, s.serialize x = .ok bytes →
    ∀ rest, s.deserialize (bytes ++ rest) = .ok x
  /-- Different values are written differently. -/
  injective : ∀ x y, fits x → fits y → s.serialize x = s.serialize y → x = y
  /-- The bytes of one value are not the beginning of the bytes of another. -/
  prefixFree : ∀ x y, fits x → fits y → ∀ bytes bytes', s.serialize x = .ok bytes →
    s.serialize y = .ok bytes' → bytes <+: bytes' → x = y ∧ bytes = bytes'

/-- The last two follow from the first two: reading the longer bytes gives both values. -/
theorem SelfDelimiting.of_reads {s : Serializer V} {fits : V → Prop}
    (writes : ∀ x, ∃ bytes, s.serialize x = .ok bytes)
    (reads : ∀ x, fits x → ∀ bytes, s.serialize x = .ok bytes →
      ∀ rest, s.deserialize (bytes ++ rest) = .ok x) : s.SelfDelimiting fits := by
  have hprefix : ∀ x y, fits x → fits y → ∀ bytes bytes', s.serialize x = .ok bytes →
      s.serialize y = .ok bytes' → bytes <+: bytes' → x = y := by
    rintro x y hx hy bytes bytes' hbytes hbytes' ⟨rest, rfl⟩
    have hx' := reads x hx bytes hbytes rest
    have hy' := reads y hy (bytes ++ rest) hbytes' []
    rw [List.append_nil, hx'] at hy'
    exact Except.ok.inj hy'
  refine ⟨writes, reads, fun x y hx hy h => ?_, fun x y hx hy bytes bytes' hb hb' hpre => ?_⟩
  · obtain ⟨bytes, hbytes⟩ := writes x
    exact hprefix x y hx hy bytes bytes hbytes (h ▸ hbytes) (List.prefix_refl _)
  · obtain rfl := hprefix x y hx hy bytes bytes' hb hb' hpre
    exact ⟨rfl, Except.ok.inj (hb.symm.trans hb')⟩

theorem selfDelimiting_ofFormat {f : Wire.Format V} {fits : V → Prop} (hf : f.Faithful fits) :
    (ofFormat f).SelfDelimiting fits := by
  refine .of_reads (fun x => ⟨f.encode x, rfl⟩) ?_
  rintro x hx bytes hbytes rest
  obtain rfl : f.encode x = bytes := Except.ok.inj hbytes
  simp only [ofFormat, Wire.Decoder.run, hf x hx rest, Except.map]

/-- **What is cached survives the way to a provider and back.** Texts, subjects and authentication
results of texts are all written, and read back as they were from bytes behind which anything may
stand; so no two have the same bytes, and the bytes of one are not the beginning of another's.
Lengths are words of 64 bits, and those of all values that fit into a memory fit into one. -/
theorem values_survive :
    (ofFormat .text).SelfDelimiting Wire.TextFits ∧
    (ofFormat .subject).SelfDelimiting Wire.SubjectFits ∧
    (ofFormat (.authResult .text)).SelfDelimiting (Wire.AuthResultFits Wire.TextFits) :=
  ⟨selfDelimiting_ofFormat Wire.Format.faithful_text,
    selfDelimiting_ofFormat Wire.Format.faithful_subject,
    selfDelimiting_ofFormat (Wire.Format.faithful_authResult Wire.Format.faithful_text)⟩

/-- A result with a repeated key and a credential is read back, with more bytes behind it. -/
theorem values_survive_repeated_key :
    let r : AuthResult String :=
      { subject := (({} : Subject).withPrincipal "é").withPublicCredential "realm" "" |>.closed
        lookupKeys := ["b", "a", "b"] }
    ∃ bytes, (ofFormat (.authResult .text)).serialize r = .ok bytes ∧
      (ofFormat (.authResult .text)).deserialize (bytes ++ [7, 0, 255]) = .ok r := by
  intro r
  have hfits : Wire.AuthResultFits Wire.TextFits r := by decide
  obtain ⟨-, -, hresults⟩ := values_survive
  obtain ⟨bytes, hbytes⟩ := hresults.writes r
  exact ⟨bytes, hbytes, hresults.reads r hfits bytes hbytes [7, 0, 255]⟩

end Serializer

end GenerationalCache
