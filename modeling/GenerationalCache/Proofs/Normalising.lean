import GenerationalCache.Proofs.Accepting
import GenerationalCache.Proofs.SelfDelimiting
import Mathlib.Data.List.Flatten
import Mathlib.Data.List.Induction
import Mathlib.Data.List.Perm.Subperm

/-!
# Reading puts in order

The sets and maps of a subject are read in any order and with repeats, and put together anew. So what
was read is not always what would be written. It is written in no more bytes, and in the same bytes
exactly if the members and the names came in ascending order, without repeats. Of a repeated name the
value that comes last counts; the keys of an authentication result are left as they come.

Bytes may have more behind them than a value. The shortest beginning of them that can still be read
is the value itself, as it was written by whoever wrote it.
-/

namespace GenerationalCache

/-! ## Sets and maps of what was read -/

/-- A pair of a list of pairs after which its name does not come again. -/
def IsLast (ps : List (String × String)) (p : String × String) : Prop :=
  ∃ before after, ps = before ++ p :: after ∧ ∀ q ∈ after, q.1 ≠ p.1

theorem isLast_append_singleton {ps : List (String × String)} {p q : String × String} :
    IsLast (ps ++ [q]) p ↔ p = q ∨ IsLast ps p ∧ q.1 ≠ p.1 := by
  constructor
  · rintro ⟨before, after, heq, hafter⟩
    rcases List.eq_nil_or_concat after with rfl | ⟨after', r, rfl⟩
    · exact .inl (List.singleton_inj.mp (List.append_inj' heq rfl).2).symm
    · have heq' : ps ++ [q] = (before ++ p :: after') ++ [r] := by simpa using heq
      obtain ⟨rfl, hq⟩ := List.append_inj' heq' rfl
      obtain rfl := List.singleton_inj.mp hq
      exact .inr ⟨⟨before, after', rfl, fun x hx => hafter x (by simp [hx])⟩,
        hafter q (by simp)⟩
  · rintro (rfl | ⟨⟨before, after, rfl, hafter⟩, hne⟩)
    · exact ⟨ps, [], rfl, List.forall_mem_nil _⟩
    · refine ⟨before, after ++ [q], by simp, fun x hx => ?_⟩
      rcases List.mem_append.mp hx with hx | hx
      · exact hafter x hx
      · exact List.mem_singleton.mp hx ▸ hne

section

variable {α : Type} {key : α → String}

theorem ne_of_compare_eq_lt {a b : String} (h : compare a b = .lt) : a ≠ b := by
  rintro rfl
  rw [Std.ReflOrd.compare_self] at h
  cases h

/-- What is put into an ascending list takes the place of what has its key. -/
theorem mem_insertAscending_iff {x y : α} {ys : List α}
    (h : ys.Pairwise fun a b => compare (key a) (key b) = .lt) :
    y ∈ insertAscending key x ys ↔ y = x ∨ y ∈ ys ∧ key x ≠ key y := by
  induction ys with
  | nil => simp [insertAscending]
  | cons z zs ih =>
      obtain ⟨hz, hzs⟩ := List.pairwise_cons.mp h
      rw [insertAscending]
      split
      · next hlt =>
        -- it comes before everything, and everything else has another key
        have hall : ∀ y ∈ z :: zs, key x ≠ key y := by
          refine List.forall_mem_cons.mpr ⟨ne_of_compare_eq_lt hlt, fun y hy => ?_⟩
          exact ne_of_compare_eq_lt (Std.TransCmp.lt_trans hlt (hz y hy))
        rw [List.mem_cons]
        exact or_congr_right ⟨fun hy => ⟨hy, hall y hy⟩, And.left⟩
      · next heq =>
        have hkey : key x = key z := Std.LawfulEqCmp.eq_of_compare heq
        rw [List.mem_cons]
        refine or_congr_right ⟨fun hy => ⟨List.mem_cons_of_mem _ hy, ?_⟩, ?_⟩
        · exact hkey ▸ ne_of_compare_eq_lt (hz y hy)
        · rintro ⟨hy, hxy⟩
          rcases List.mem_cons.mp hy with rfl | hy
          · exact absurd hkey hxy
          · exact hy
      · next hgt =>
        have hxz : key x ≠ key z := (ne_of_compare_eq_lt (Std.OrientedCmp.gt_iff_lt.mp hgt)).symm
        rw [List.mem_cons, ih hzs, List.mem_cons]
        constructor
        · rintro (rfl | rfl | ⟨hy, hxy⟩)
          · exact .inr ⟨.inl rfl, hxz⟩
          · exact .inl rfl
          · exact .inr ⟨.inr hy, hxy⟩
        · rintro (rfl | ⟨rfl | hy, hxy⟩)
          · exact .inr (.inl rfl)
          · exact .inl rfl
          · exact .inr (.inr ⟨hy, hxy⟩)

theorem nodup_of_ascending {ys : List α}
    (h : ys.Pairwise fun a b => compare (key a) (key b) = .lt) : ys.Nodup :=
  h.imp fun hlt heq => ne_of_compare_eq_lt hlt (congrArg key heq)

end

/-- **A set has the members that were read.** -/
theorem TextSet.mem_ofList {xs : List String} {x : String} :
    x ∈ (TextSet.ofList xs).items ↔ x ∈ xs := by
  induction xs using List.reverseRecOn with
  | nil => simp [TextSet.ofList, TextSet.empty]
  | append_singleton xs y ih =>
      rw [TextSet.ofList, List.foldl_append, ← TextSet.ofList]
      refine (mem_insertAscending_iff (TextSet.ofList xs).ascending).trans ?_
      rw [ih, List.mem_append, List.mem_singleton]
      constructor
      · rintro (rfl | ⟨h, -⟩)
        · exact .inr rfl
        · exact .inl h
      · rintro (h | rfl)
        · by_cases hx : x = y
          · exact .inl hx
          · exact .inr ⟨h, Ne.symm hx⟩
        · exact .inl rfl

/-- **A map has the pairs that were read last for their names.** -/
theorem TextMap.mem_ofList {ps : List (String × String)} {p : String × String} :
    p ∈ (TextMap.ofList ps).pairs ↔ IsLast ps p := by
  induction ps using List.reverseRecOn with
  | nil => simp [TextMap.ofList, TextMap.empty, IsLast]
  | append_singleton ps q ih =>
      rw [TextMap.ofList, List.foldl_append, ← TextMap.ofList, isLast_append_singleton, ← ih]
      exact mem_insertAscending_iff (TextMap.ofList ps).ascending

/-- A set is a part of what was read. -/
theorem TextSet.subperm_ofList (xs : List String) : (TextSet.ofList xs).items.Subperm xs :=
  List.subperm_of_subset (nodup_of_ascending (TextSet.ofList xs).ascending)
    fun _ => TextSet.mem_ofList.mp

theorem TextMap.subperm_ofList (ps : List (String × String)) :
    (TextMap.ofList ps).pairs.Subperm ps := by
  refine List.subperm_of_subset (nodup_of_ascending (TextMap.ofList ps).ascending) fun p hp => ?_
  obtain ⟨before, after, rfl, -⟩ := TextMap.mem_ofList.mp hp
  exact List.mem_append_right _ List.mem_cons_self

/-- It is what was read exactly if that was in ascending order. -/
theorem TextSet.items_ofList_eq_iff {xs : List String} :
    (TextSet.ofList xs).items = xs ↔ xs.Pairwise fun a b => compare a b = .lt :=
  ⟨fun h => h ▸ (TextSet.ofList xs).ascending,
    fun h => congrArg TextSet.items (TextSet.ofList_items ⟨xs, h⟩)⟩

theorem TextMap.pairs_ofList_eq_iff {ps : List (String × String)} :
    (TextMap.ofList ps).pairs = ps ↔ ps.Pairwise fun a b => compare a.1 b.1 = .lt :=
  ⟨fun h => h ▸ (TextMap.ofList ps).ascending,
    fun h => congrArg TextMap.pairs (TextMap.ofList_pairs ⟨ps, h⟩)⟩

namespace Wire

/-- A part of a list is written in no more bytes than the list. -/
theorem length_encodeSequence_le {α : Type} (encode : α → List UInt8) {xs ys : List α}
    (h : xs.Subperm ys) : (encodeSequence encode xs).length ≤ (encodeSequence encode ys).length := by
  obtain ⟨zs, hperm, hsub⟩ := h
  have hlength : (xs.flatMap encode).length = (zs.flatMap encode).length :=
    (hperm.symm.flatMap_right encode).length_eq
  have hle := (hsub.flatMap encode).length_le
  simp only [encodeSequence, List.length_append, length_encodeWord]
  omega

theorem ListFits.subperm {α : Type} {fits : α → Prop} {xs ys : List α} (h : ListFits fits ys)
    (hsub : xs.Subperm ys) : ListFits fits xs :=
  ⟨Nat.lt_of_le_of_lt hsub.length_le h.1, fun x hx => h.2 x (hsub.subset hx)⟩

/-! ## Subjects as they stand in bytes -/

/-- A subject as it stands in bytes: nothing in order, and repeats kept. -/
structure WrittenSubject where
  /-- The members of the set, as they come. -/
  principals : List String
  /-- The names and values of one map, as they come. -/
  publicCredentials : List (String × String)
  /-- Those of the other map. -/
  privateCredentials : List (String × String)
  /-- The flag at the end. -/
  readOnly : Bool

namespace WrittenSubject

/-- The subject that it is read as. -/
def subject (w : WrittenSubject) : Subject where
  principals := .ofList w.principals
  publicCredentials := .ofList w.publicCredentials
  privateCredentials := .ofList w.privateCredentials
  readOnly := w.readOnly

/-- The subject as it is written: in order, and without repeats. -/
def ofSubject (s : Subject) : WrittenSubject :=
  ⟨s.principals.items, s.publicCredentials.pairs, s.privateCredentials.pairs, s.readOnly⟩

/-- The members and the names come in strictly ascending order of their bytes. -/
structure Ascending (w : WrittenSubject) : Prop where
  /-- The members, all different. -/
  principals : w.principals.Pairwise fun a b => Text.Utf8.encode a < Text.Utf8.encode b
  /-- The names of one map, all different. -/
  publicCredentials :
    w.publicCredentials.Pairwise fun a b => Text.Utf8.encode a.1 < Text.Utf8.encode b.1
  /-- Those of the other map. -/
  privateCredentials :
    w.privateCredentials.Pairwise fun a b => Text.Utf8.encode a.1 < Text.Utf8.encode b.1

/-- The subject has what stands there: the members, of each name the value that comes last, and the
flag. -/
structure ReadAs (w : WrittenSubject) (s : Subject) : Prop where
  /-- Order and repeats of the members are lost. -/
  principals : ∀ x, x ∈ s.principals.items ↔ x ∈ w.principals
  /-- Of the values under one name the last is kept. -/
  publicCredentials : ∀ p, p ∈ s.publicCredentials.pairs ↔ IsLast w.publicCredentials p
  /-- So it is in the other map. -/
  privateCredentials : ∀ p, p ∈ s.privateCredentials.pairs ↔ IsLast w.privateCredentials p
  /-- The flag is kept as it is. -/
  readOnly : s.readOnly = w.readOnly

theorem readAs_subject (w : WrittenSubject) : w.ReadAs w.subject where
  principals _ := TextSet.mem_ofList
  publicCredentials _ := TextMap.mem_ofList
  privateCredentials _ := TextMap.mem_ofList
  readOnly := rfl

theorem ofSubject_subject_iff {w : WrittenSubject} : ofSubject w.subject = w ↔ w.Ascending := by
  obtain ⟨principals, publicCredentials, privateCredentials, readOnly⟩ := w
  simp only [ofSubject, subject, mk.injEq, and_true, TextSet.items_ofList_eq_iff,
    TextMap.pairs_ofList_eq_iff, Text.Utf8.compare_eq_lt_iff]
  exact ⟨fun ⟨h₁, h₂, h₃⟩ => ⟨h₁, h₂, h₃⟩, fun ⟨h₁, h₂, h₃⟩ => ⟨h₁, h₂, h₃⟩⟩

theorem subject_ofSubject (s : Subject) : (ofSubject s).subject = s := by
  obtain ⟨principals, publicCredentials, privateCredentials, readOnly⟩ := s
  simp only [ofSubject, subject, TextSet.ofList_items, TextMap.ofList_pairs]

end WrittenSubject

/-- An authentication result as it stands in bytes. -/
structure WrittenResult (K : Type) where
  /-- The subject, as it stands there. -/
  subject : WrittenSubject
  /-- The keys, in order and with repeats, which they keep when they are read. -/
  lookupKeys : List K

namespace WrittenResult

variable {K : Type}

/-- The result that it is read as. -/
def result (w : WrittenResult K) : AuthResult K := ⟨w.subject.subject, w.lookupKeys⟩

/-- The result as it is written. -/
def ofResult (r : AuthResult K) : WrittenResult K := ⟨.ofSubject r.subject, r.lookupKeys⟩

theorem result_ofResult (r : AuthResult K) : (ofResult r).result = r := by
  simp only [ofResult, result, WrittenSubject.subject_ofSubject]

theorem ofResult_result_iff {w : WrittenResult K} :
    ofResult w.result = w ↔ w.subject.Ascending := by
  obtain ⟨subject, lookupKeys⟩ := w
  simp only [ofResult, result, mk.injEq, and_true, WrittenSubject.ofSubject_subject_iff]

end WrittenResult

theorem Decoder.map_map {α β γ : Type} (q : β → γ) (p : α → β) (d : Decoder α) :
    (d.map p).map q = d.map (q ∘ p) := by
  funext bytes
  simp only [Decoder.map]
  cases d bytes <;> rfl

theorem Decoder.pair_map {α β γ δ : Type} (p : α → γ) (q : β → δ) (d : Decoder α) (e : Decoder β) :
    (d.map p).pair (e.map q) = (d.pair e).map (Prod.map p q) := by
  funext bytes
  simp only [Decoder.pair, Decoder.map]
  cases d bytes with
  | error failure => rfl
  | ok r =>
      simp only [Except.map]
      cases e r.2 <;> rfl

namespace Format

variable {V W : Type}

/-- The format of subjects in which nothing is put in order. -/
def writtenSubject : Format WrittenSubject :=
  (pair (list text) (pair (list (pair text text)) (pair (list (pair text text)) flag))).via
    (fun (principals, publicCredentials, privateCredentials, readOnly) =>
      { principals, publicCredentials, privateCredentials, readOnly })
    (fun w => (w.principals, w.publicCredentials, w.privateCredentials, w.readOnly))

/-- The format of results in which nothing is put in order. -/
def writtenResult {K : Type} (keys : Format K) : Format (WrittenResult K) :=
  (pair writtenSubject (list keys)).via
    (fun (subject, lookupKeys) => { subject, lookupKeys })
    (fun w => (w.subject, w.lookupKeys))

/-- What one format reads is read by another as it stands, and then put in order, which makes it no
longer. The second format reads what it writes, and nothing else, for the values that fit. -/
structure Orders (f : Format V) (g : Format W) (fits : W → Prop) (value : W → V)
    (write : V → W) : Prop where
  /-- The first format reads what the second one reads, and then puts it in order. -/
  decode : f.decode = g.decode.map value
  /-- It writes what is in order already. -/
  encode : ∀ x, f.encode x = g.encode (write x)
  /-- Nothing is lost when a value is written. -/
  value_write : ∀ x, value (write x) = x
  /-- To put what was read in order makes its bytes no longer. -/
  shorter : ∀ w, (g.encode (write (value w))).length ≤ (g.encode w).length
  /-- What is put in order fits if it did before. -/
  keeps : ∀ w, fits w → fits (write (value w))
  /-- The second format reads what it writes. -/
  faithful : g.Faithful fits
  /-- It reads nothing else. -/
  exact : g.Exact fits

/-- What is read exactly needs no order. -/
theorem Orders.refl {f : Format V} {fits : V → Prop} (faithful : f.Faithful fits)
    (exact : f.Exact fits) : f.Orders f fits id id where
  decode := by
    funext bytes
    simp only [Decoder.map]
    cases f.decode bytes <;> rfl
  encode _ := rfl
  value_write _ := rfl
  shorter _ := Nat.le_refl _
  keeps _ := id
  faithful := faithful
  exact := exact

section

variable {V' W' : Type} {f : Format V} {g : Format W} {f' : Format V'} {g' : Format W'}
  {fits : W → Prop} {fits' : W' → Prop} {value : W → V} {write : V → W} {value' : W' → V'}
  {write' : V' → W'}

theorem Orders.pair (h : f.Orders g fits value write) (h' : f'.Orders g' fits' value' write') :
    (f.pair f').Orders (g.pair g') (fun p => fits p.1 ∧ fits' p.2) (Prod.map value value')
      (Prod.map write write') where
  decode := by
    simp only [Format.pair]
    rw [h.decode, h'.decode, Decoder.pair_map]
  encode p := congrArg₂ (· ++ ·) (h.encode p.1) (h'.encode p.2)
  value_write p := Prod.ext (h.value_write p.1) (h'.value_write p.2)
  shorter p := by
    simp only [Format.pair, Prod.map, List.length_append]
    exact Nat.add_le_add (h.shorter p.1) (h'.shorter p.2)
  keeps p := And.imp (h.keeps p.1) (h'.keeps p.2)
  faithful := h.faithful.pair h'.faithful
  exact := h.exact.pair h'.exact

/-- Values that stand for others are put in order as those are. -/
theorem Orders.via {wrap : V → V'} {unwrap : V' → V} {wrap' : W → W'} {unwrap' : W' → W}
    (h : f.Orders g fits value write) (hvalue : ∀ w, value' (wrap' w) = wrap (value w))
    (hread : ∀ w, unwrap (value' w) = value (unwrap' w))
    (hwrite : ∀ x, unwrap' (write' x) = write (unwrap x)) (hback : ∀ x, value' (write' x) = x)
    (hwrap : ∀ w, unwrap' (wrap' w) = w) (hunwrap : ∀ w, wrap' (unwrap' w) = w) :
    (f.via wrap unwrap).Orders (g.via wrap' unwrap') (fun w => fits (unwrap' w)) value' write' where
  decode := by
    simp only [Format.via]
    rw [h.decode, Decoder.map_map, Decoder.map_map]
    exact congrArg (Decoder.map · g.decode) (funext fun w => (hvalue w).symm)
  encode x := by
    simp only [Format.via]
    rw [h.encode, hwrite]
  value_write := hback
  shorter w := by
    simp only [Format.via]
    rw [hwrite, hread]
    exact h.shorter _
  keeps w hw := by
    rw [hwrite, hread]
    exact h.keeps _ hw
  faithful := h.faithful.via hunwrap
  exact := h.exact.via hwrap

end

theorem orders_textSet :
    textSet.Orders (list text) (ListFits TextFits) TextSet.ofList TextSet.items where
  decode := rfl
  encode _ := rfl
  value_write := TextSet.ofList_items
  shorter xs := length_encodeSequence_le encodeText (TextSet.subperm_ofList xs)
  keeps xs hxs := hxs.subperm (TextSet.subperm_ofList xs)
  faithful := faithful_text.list
  exact := exact_text.list

theorem orders_textMap :
    textMap.Orders (list (pair text text)) (ListFits CredentialFits) TextMap.ofList
      TextMap.pairs where
  decode := rfl
  encode _ := rfl
  value_write := TextMap.ofList_pairs
  shorter ps := length_encodeSequence_le (pair text text).encode (TextMap.subperm_ofList ps)
  keeps ps hps := hps.subperm (TextMap.subperm_ofList ps)
  faithful := (faithful_text.pair faithful_text).list
  exact := (exact_text.pair exact_text).list

theorem orders_subject : ∃ fits,
    subject.Orders writtenSubject fits WrittenSubject.subject WrittenSubject.ofSubject :=
  ⟨_, (orders_textSet.pair (orders_textMap.pair (orders_textMap.pair
      (.refl faithful_flag exact_flag)))).via
    (fun _ => rfl) (fun _ => rfl) (fun _ => rfl) WrittenSubject.subject_ofSubject
    (fun _ => rfl) (fun _ => rfl)⟩

theorem orders_authResult {K : Type} {keys : Format K} {fits : K → Prop}
    (faithful : keys.Faithful fits) (exact : keys.Exact fits) : ∃ fits,
    (authResult keys).Orders (writtenResult keys) fits WrittenResult.result
      WrittenResult.ofResult := by
  obtain ⟨fits, hsubject⟩ := orders_subject
  exact ⟨_, (hsubject.pair (.refl faithful.list exact.list)).via
    (fun _ => rfl) (fun _ => rfl) (fun _ => rfl) WrittenResult.result_ofResult
    (fun _ => rfl) (fun _ => rfl)⟩

end Format

end Wire

/-! ## What is read from any bytes -/

namespace Serializer

variable {V W : Type}

/-- The shortest beginning of bytes that can be read. -/
structure Core (s : Serializer V) (bytes core : List UInt8) : Prop where
  /-- It is a beginning of the bytes. -/
  begins : core <+: bytes
  /-- It can be read. -/
  readable : ∃ x, s.deserialize core = .ok x
  /-- No beginning that can be read is shorter. -/
  shortest : ∀ bytes', bytes' <+: bytes → (∃ x, s.deserialize bytes' = .ok x) →
    core.length ≤ bytes'.length

theorem Core.unique {s : Serializer V} {bytes core core' : List UInt8} (h : s.Core bytes core)
    (h' : s.Core bytes core') : core = core' := by
  have hle := h.shortest core' h'.begins h'.readable
  exact (List.prefix_of_prefix_length_le h.begins h'.begins hle).eq_of_length_le
    (h'.shortest core h.begins h.readable)

/-- Reading puts in order what stands in bytes. What stands there is told by a second format; how it
is to be read, and when it is in order, by two conditions. -/
structure Normalises (f : Wire.Format V) (g : Wire.Format W) (Reads : W → V → Prop)
    (Ascending : W → Prop) : Prop where
  /-- Bytes that can be read have a shortest beginning that can, and the same is read from it. -/
  hasCore : ∀ bytes x, (ofFormat f).deserialize bytes = .ok x →
    ∃ core, (ofFormat f).Core bytes core ∧ (ofFormat f).deserialize core = .ok x
  /-- All of that beginning belongs to what stands in the bytes. -/
  stands : ∀ bytes core, (ofFormat f).Core bytes core →
    ∃ w, g.decode core = .ok (w, []) ∧ g.encode w = core
  /-- The value has what stands there. -/
  reads : ∀ bytes core x w, (ofFormat f).Core bytes core →
    (ofFormat f).deserialize bytes = .ok x → g.decode core = .ok (w, []) → Reads w x
  /-- It is written in no more bytes. -/
  notLonger : ∀ bytes core x, (ofFormat f).Core bytes core →
    (ofFormat f).deserialize bytes = .ok x →
    ∃ normal, (ofFormat f).serialize x = .ok normal ∧ normal.length ≤ core.length
  /-- It is written in the same bytes exactly if what stands there is in order. -/
  canonical : ∀ bytes core x w, (ofFormat f).Core bytes core →
    (ofFormat f).deserialize bytes = .ok x → g.decode core = .ok (w, []) →
    ((ofFormat f).serialize x = .ok core ↔ Ascending w)

section

variable {f : Wire.Format V} {g : Wire.Format W} {value : W → V} {write : V → W}
  {fits : W → Prop} {bytes core rest : List UInt8} {w : W} {x : V}

/-- What is read stands at the front of the bytes. -/
theorem exists_of_deserialize (h : f.Orders g fits value write)
    (hread : (ofFormat f).deserialize bytes = .ok x) :
    ∃ w rest, bytes = g.encode w ++ rest ∧ fits w ∧ value w = x := by
  simp only [ofFormat, Wire.Decoder.run, h.decode, Wire.Decoder.map] at hread
  cases hdecode : g.decode bytes with
  | error failure => rw [hdecode] at hread; cases hread
  | ok r =>
      rw [hdecode] at hread
      obtain ⟨hbytes, hfits⟩ := h.exact hdecode
      exact ⟨r.1, r.2, hbytes, hfits, Except.ok.inj hread⟩

theorem deserialize_append (h : f.Orders g fits value write) (hw : fits w) :
    (ofFormat f).deserialize (g.encode w ++ rest) = .ok (value w) := by
  simp only [ofFormat, Wire.Decoder.run, h.decode, Wire.Decoder.map, h.faithful w hw rest, Except.map]

theorem deserialize_encode (h : f.Orders g fits value write) (hw : fits w) :
    (ofFormat f).deserialize (g.encode w) = .ok (value w) := by
  have hread : (ofFormat f).deserialize (g.encode w ++ []) = .ok (value w) :=
    deserialize_append h hw
  rwa [List.append_nil] at hread

/-- It is their shortest beginning that can be read. A shorter one would hold another value, and both
would be read from the bytes. -/
theorem core_encode (h : f.Orders g fits value write) (hw : fits w) :
    (ofFormat f).Core (g.encode w ++ rest) (g.encode w) where
  begins := List.prefix_append _ _
  readable := ⟨value w, deserialize_encode h hw⟩
  shortest := by
    rintro bytes' ⟨more, hmore⟩ ⟨y, hy⟩
    obtain ⟨w', rest', rfl, hw', -⟩ := exists_of_deserialize h hy
    have hread := h.faithful w hw rest
    rw [← hmore, List.append_assoc, h.faithful w' hw'] at hread
    obtain ⟨rfl, -⟩ := Prod.mk.inj (Except.ok.inj hread)
    rw [List.length_append]
    exact Nat.le_add_right _ _

/-- So the shortest beginning that can be read is what stands there. -/
theorem Core.exists_eq (h : f.Orders g fits value write)
    (hcore : (ofFormat f).Core bytes core) :
    ∃ w rest, core = g.encode w ∧ bytes = core ++ rest ∧ fits w := by
  obtain ⟨x, hx⟩ := hcore.readable
  obtain ⟨w, rest', rfl, hw, -⟩ := exists_of_deserialize h hx
  obtain ⟨rest, rfl⟩ := hcore.begins
  have hcore' : (ofFormat f).Core (g.encode w ++ (rest' ++ rest)) (g.encode w) := core_encode h hw
  rw [← List.append_assoc] at hcore'
  exact ⟨w, rest, hcore.unique hcore', rfl, hw⟩

/-- **A format that orders what stands in bytes normalises them.** -/
theorem normalises_of_orders {Reads : W → V → Prop} {Ascending : W → Prop}
    (h : f.Orders g fits value write) (hreads : ∀ w, Reads w (value w))
    (hordered : ∀ w, write (value w) = w ↔ Ascending w) : Normalises f g Reads Ascending := by
  -- what is known of a core, in terms of what stands in it
  have hcores : ∀ {bytes core x}, (ofFormat f).Core bytes core →
      (ofFormat f).deserialize bytes = .ok x →
      ∃ w, core = g.encode w ∧ fits w ∧ g.decode core = .ok (w, []) ∧ value w = x := by
    intro bytes core x hcore hread
    obtain ⟨w, rest, rfl, rfl, hw⟩ := hcore.exists_eq h
    rw [deserialize_append h hw] at hread
    have hdecode := h.faithful w hw []
    rw [List.append_nil] at hdecode
    exact ⟨w, rfl, hw, hdecode, Except.ok.inj hread⟩
  refine ⟨?_, ?_, ?_, ?_, ?_⟩
  · intro bytes x hread
    obtain ⟨w, rest, rfl, hw, rfl⟩ := exists_of_deserialize h hread
    exact ⟨g.encode w, core_encode h hw, deserialize_encode h hw⟩
  · intro bytes core hcore
    obtain ⟨w, rest, rfl, rfl, hw⟩ := hcore.exists_eq h
    obtain ⟨w, hcore, -, hdecode, -⟩ := hcores hcore (deserialize_append h hw)
    exact ⟨w, hdecode, hcore.symm⟩
  · intro bytes core x w hcore hread hdecode
    obtain ⟨w', -, -, hdecode', rfl⟩ := hcores hcore hread
    rw [hdecode'] at hdecode
    obtain ⟨rfl, -⟩ := Prod.mk.inj (Except.ok.inj hdecode)
    exact hreads w'
  · intro bytes core x hcore hread
    obtain ⟨w, rfl, -, -, rfl⟩ := hcores hcore hread
    exact ⟨f.encode (value w), rfl, h.encode (value w) ▸ h.shorter w⟩
  · intro bytes core x w hcore hread hdecode
    obtain ⟨w', rfl, hw', hdecode', rfl⟩ := hcores hcore hread
    rw [hdecode'] at hdecode
    obtain ⟨rfl, -⟩ := Prod.mk.inj (Except.ok.inj hdecode)
    rw [← hordered]
    constructor
    · intro hwritten
      -- both are read back from the same bytes
      have hsame : g.encode (write (value w')) = g.encode w' := by
        rw [← h.encode]
        exact Except.ok.inj hwritten
      have hread' := h.faithful _ (h.keeps w' hw') []
      rw [hsame, h.faithful w' hw'] at hread'
      exact (Prod.mk.inj (Except.ok.inj hread')).1.symm
    · intro heq
      have hwritten : f.encode (value w') = g.encode w' := by rw [h.encode, heq]
      exact congrArg Except.ok hwritten

end

/-- **Reading normalises.** Whatever bytes a subject or an authentication result is read from, its own
bytes are the shortest beginning that can be read. From it the subject has the members and the pairs
that stand there, of a repeated name the value that comes last, and the result has the keys as they
stand there. It is written in no more bytes, and in the same ones exactly if members and names came
in strictly ascending order. Reading ends on all bytes, whatever numbers they announce, in at most
two steps for each byte and one more. -/
theorem reading_normalises :
    Normalises .subject .writtenSubject Wire.WrittenSubject.ReadAs Wire.WrittenSubject.Ascending ∧
    Normalises (.authResult .text) (.writtenResult .text)
      (fun w r => w.subject.ReadAs r.subject ∧ r.lookupKeys = w.lookupKeys)
      (fun w => w.subject.Ascending) ∧
    ∀ bytes,
      ((Wire.Metered.subject bytes).1 = Wire.Format.subject.decode bytes ∧
        (Wire.Metered.subject bytes).2 ≤ 2 * bytes.length + 1) ∧
      ((Wire.Metered.authResult .text bytes).1 = (Wire.Format.authResult .text).decode bytes ∧
        (Wire.Metered.authResult .text bytes).2 ≤ 2 * bytes.length + 1) := by
  have hresult : (Wire.Metered.authResult .text).Measures (Wire.Format.authResult .text).decode :=
    Wire.Metered.measures_authResult Wire.Metered.measures_text
  refine ⟨?_, ?_, fun bytes => ⟨⟨?_, ?_⟩, hresult.reads bytes, hresult.steps_le bytes⟩⟩
  · obtain ⟨fits, hsubject⟩ := Wire.Format.orders_subject
    exact normalises_of_orders hsubject Wire.WrittenSubject.readAs_subject
      fun _ => Wire.WrittenSubject.ofSubject_subject_iff
  · obtain ⟨fits, hresults⟩ :=
      Wire.Format.orders_authResult Wire.Format.faithful_text Wire.Format.exact_text
    exact normalises_of_orders hresults
      (fun w => ⟨Wire.WrittenSubject.readAs_subject w.subject, rfl⟩)
      fun _ => Wire.WrittenResult.ofResult_result_iff
  · exact Wire.Metered.measures_subject.reads bytes
  · exact Wire.Metered.measures_subject.steps_le bytes

/-- Members out of order, a repeated name and a byte too many. -/
example :
    let w : Wire.WrittenSubject := ⟨["b", "a"], [("realm", "x"), ("realm", "y")], [], true⟩
    (ofFormat .subject).deserialize (Wire.Format.writtenSubject.encode w ++ [7]) =
      .ok (((({} : Subject).withPrincipal "a").withPrincipal "b").withPublicCredential
        "realm" "y").closed :=
  rfl

end Serializer

end GenerationalCache
