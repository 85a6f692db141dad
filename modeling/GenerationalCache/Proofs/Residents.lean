import GenerationalCache.Proofs.Slots
import Mathlib.Data.List.Perm.Basic
import Mathlib.Data.List.Count

/-!
# What the tables hold, as a bag

Whether a value is lost or reported twice is a question about how often it occurs, not about where.
So the values of the resolved entries are taken together over all tables, up to order, and each
operation is shown to take out of this bag exactly what it hands back.

An insert is the one place where this needs the key to be in one table only: it hands back a single
entry, and with a second one in an older table that one would be gone without a word.
-/

namespace GenerationalCache

variable {K V : Type}

namespace Entry

theorem values_append (es fs : List (Entry V)) : values (es ++ fs) = values es ++ values fs :=
  List.filterMap_append

theorem values_cons (e : Entry V) (es : List (Entry V)) :
    values (e :: es) = e.value.toList ++ values es := by
  cases h : e.value <;> simp [values, h]

theorem values_perm {es fs : List (Entry V)} (h : es.Perm fs) : (values es).Perm (values fs) :=
  h.filterMap _

end Entry

variable [Ord K]

/-- The values of all resolved entries. -/
def Tables.resident (t : Tables K V) : List V := Entry.values t.entries

/-! ## One table -/

namespace Table

theorem values_eq_map_snd (t : Table K V) : t.values = t.toList.map Prod.snd := by
  simp only [Std.TreeMap.values, Std.DTreeMap.values, Std.TreeMap.toList,
    Std.DTreeMap.Const.toList]
  rw [Std.DTreeMap.Internal.Impl.values_eq_map_snd,
    Std.DTreeMap.Internal.Impl.Const.toList_eq_toListModel_map]
  simp

variable [Std.TransOrd K]

theorem nodup_toList (t : Table K V) : t.toList.Nodup := by
  refine t.distinct_keys_toList.imp ?_
  rintro a b h rfl
  exact h Std.ReflCmp.compare_self

variable [Std.LawfulEqOrd K]

/-- A table is the entry of a key and what is left without it. -/
theorem values_perm_of_getElem? {t : Table K V} {k : K} {e : Entry V} (h : t[k]? = some e) :
    t.values.Perm (e :: (t.erase k).values) := by
  have hl : t.toList.Perm ((k, e) :: (t.erase k).toList) := by
    -- neither list has repeats, so it is enough that they have the same members
    refine (List.perm_ext_iff_of_nodup t.nodup_toList ?_).mpr ?_
    · refine List.nodup_cons.mpr ⟨?_, nodup_toList _⟩
      simp [Std.TreeMap.mem_toList_iff_getElem?_eq_some]
    · rintro ⟨k', e'⟩
      simp only [List.mem_cons, Std.TreeMap.mem_toList_iff_getElem?_eq_some,
        Std.TreeMap.getElem?_erase]
      grind
  simpa [values_eq_map_snd] using hl.map Prod.snd

/-- A resolved value in a table is among those that the table holds. -/
theorem mem_values_of_getElem? {t : Table K V} {k : K} {e : Entry V} {x : V} (h : t[k]? = some e)
    (hx : e.value = some x) : x ∈ Entry.values t.values := by
  have hmem : e ∈ t.values := (values_perm_of_getElem? h).symm.subset List.mem_cons_self
  exact List.mem_filterMap.mpr ⟨e, hmem, hx⟩

theorem values_eq_of_getElem?_eq {t₁ t₂ : Table K V} (h : ∀ k : K, t₁[k]? = t₂[k]?) :
    t₁.values = t₂.values := (Std.TreeMap.Equiv.of_forall_constGet?_eq h).values_eq

/-- Taking a key out of a table takes exactly its value out of the bag. -/
theorem values_erase (t : Table K V) (k : K) :
    (Entry.values t.values).Perm
      (Entry.values (t.erase k).values ++ (t[k]?.bind Entry.value).toList) := by
  cases h : t[k]? with
  | none =>
      have : (t.erase k).values = t.values := values_eq_of_getElem?_eq fun k' => by
        rw [Std.TreeMap.getElem?_erase]
        grind
      simp [this]
  | some e =>
      refine (Entry.values_perm (values_perm_of_getElem? h)).trans ?_
      rw [Entry.values_cons]
      exact List.perm_append_comm

/-- Storing an entry adds its value, in the place of the one that the key had. -/
theorem values_insert (t : Table K V) (k : K) (e : Entry V) :
    (e.value.toList ++ Entry.values t.values).Perm
      (Entry.values (t.insert k e).values ++ (t[k]?.bind Entry.value).toList) := by
  have hk : (t.insert k e)[k]? = some e := Std.TreeMap.getElem?_insert_self
  have he : ((t.insert k e).erase k).values = (t.erase k).values :=
    values_eq_of_getElem?_eq fun k' => by
      rw [Std.TreeMap.getElem?_erase, Std.TreeMap.getElem?_erase, Std.TreeMap.getElem?_insert]
      grind
  have hi := Entry.values_perm (values_perm_of_getElem? hk)
  rw [he, Entry.values_cons] at hi
  refine ((t.values_erase k).append_left _).trans ?_
  rw [← List.append_assoc]
  exact hi.symm.append_right _

end Table

/-! ## Rotations -/

namespace Tables

theorem resident_eq (t : Tables K V) :
    t.resident = Entry.values t.primary.values ++ Entry.values t.secondary.values ++
      Entry.values t.tertiary.values := by
  simp [resident, entries, Entry.values_append]

/-- A rotation takes its victims out. -/
theorem resident_rotate (t : Tables K V) :
    t.resident.Perm (t.rotate.2.resident ++ t.rotate.1.victims) := by
  have h : (∅ : Table K V).values = [] := rfl
  simp [resident_eq, rotate, h, Entry.values]

theorem resident_makeRoomWithin (limit : EntryLimit) (k : K) (steps : Nat) (t : Tables K V) :
    t.resident.Perm ((t.makeRoomWithin limit k steps).2.resident ++
      (t.makeRoomWithin limit k steps).1.flatMap Rotation.victims) := by
  induction steps generalizing t with
  | zero => simp [makeRoomWithin]
  | succ steps ih =>
      unfold makeRoomWithin
      split
      · refine t.resident_rotate.trans (((ih _).append_right _).trans ?_)
        rw [List.append_assoc, List.flatMap_cons]
        exact List.perm_append_comm.append_left _
      · simp

/-- Making room takes out the victims of its rotations. -/
theorem resident_makeRoom (t : Tables K V) (limit : EntryLimit) (k : K) :
    t.resident.Perm ((t.makeRoom limit k).2.resident ++
      (t.makeRoom limit k).1.flatMap Rotation.victims) := resident_makeRoomWithin limit k 3 t

/-! ## Lookups, inserts and removals -/

variable [Std.TransOrd K] [Std.LawfulEqOrd K]

/-- Taking a key out of an older table takes its value there out. -/
theorem resident_takeOlder (t : Tables K V) (k : K) :
    t.resident.Perm
      ((t.takeOlder k).2.resident ++ ((t.takeOlder k).1.bind Entry.value).toList) := by
  classical
  refine List.perm_iff_count.mpr fun v => ?_
  have h₂ := (t.secondary.values_erase k).count_eq v
  have h₃ := (t.tertiary.values_erase k).count_eq v
  unfold takeOlder
  split
  · next e he =>
      simp only [he, Option.bind_some, List.count_append] at h₂
      simp only [resident_eq, Option.bind_some, List.count_append]
      omega
  · split
    · next e he =>
        simp only [he, Option.bind_some, List.count_append] at h₃
        simp only [resident_eq, Option.bind_some, List.count_append]
        omega
    · simp

theorem resident_putPrimary (t : Tables K V) (k : K) (e : Entry V) :
    (e.value.toList ++ t.resident).Perm
      ((t.putPrimary k e).resident ++ (t.primary[k]?.bind Entry.value).toList) := by
  classical
  refine List.perm_iff_count.mpr fun v => ?_
  have := (t.primary.values_insert k e).count_eq v
  simp only [List.count_append] at this
  simp only [resident_eq, putPrimary, List.count_append]
  omega

/-- A lookup takes nothing out, and a placeholder that it reserves holds nothing. -/
theorem resident_lookup (t : Tables K V) (k : K) (id : Nat) :
    (t.lookup k (.placeholder id)).2.resident.Perm t.resident := by
  classical
  unfold lookup
  split
  · exact .refl _
  · next h =>
      refine List.perm_iff_count.mpr fun v => ?_
      have ho := (t.resident_takeOlder k).count_eq v
      have hp := ((t.takeOlder k).2.resident_putPrimary k
        ((t.takeOlder k).1.getD (.placeholder id))).count_eq v
      have hv : (((t.takeOlder k).1.getD (.placeholder id)).value) =
          (t.takeOlder k).1.bind Entry.value := by
        cases (t.takeOlder k).1 <;> rfl
      simp only [takeOlder_primary, h, hv, Option.bind_none, Option.toList_none,
        List.count_append, List.count_nil] at ho hp ⊢
      omega

/-- An insert adds its value and hands back the one that the key had. -/
theorem resident_insert {t : Tables K V} (h : t.Unique) (k : K) (e : Entry V) :
    (e.value.toList ++ t.resident).Perm
      ((t.insert k e).2.resident ++ ((t.find? k).bind Entry.value).toList) := by
  classical
  refine List.perm_iff_count.mpr fun v => ?_
  have ho := (t.resident_takeOlder k).count_eq v
  have hp := ((t.takeOlder k).2.resident_putPrimary k e).count_eq v
  have hf : ((t.find? k).bind Entry.value).toList =
      (t.primary[k]?.bind Entry.value).toList ++
        ((t.takeOlder k).1.bind Entry.value).toList := by
    obtain ⟨h₂, h₃, -⟩ := h
    rw [takeOlder_fst, find?]
    cases hk : t.primary[k]? with
    | none => simp
    | some e' =>
        -- a key of the primary table is in no older one, so nothing is taken out there
        have hm : k ∈ t.primary := by grind
        have := h₂ k hm
        have := h₃ k hm
        simp_all
  rw [takeOlder_primary] at hp
  rw [hf]
  simp only [insert, List.count_append] at ho hp ⊢
  omega

/-- A removal takes out the value that it hands back. -/
theorem resident_remove (t : Tables K V) (k : K) :
    t.resident.Perm ((t.remove k).2.resident ++ ((t.find? k).bind Entry.value).toList) := by
  rw [← remove_fst]
  unfold remove
  split
  · next e he =>
      classical
      refine List.perm_iff_count.mpr fun v => ?_
      have := (t.primary.values_erase k).count_eq v
      rw [he] at this
      simp only [List.count_append] at this
      simp only [resident_eq, List.count_append]
      omega
  · exact t.resident_takeOlder k

end Tables

end GenerationalCache
