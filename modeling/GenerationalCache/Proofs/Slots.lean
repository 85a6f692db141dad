import GenerationalCache.Tables
import Mathlib.Logic.Function.Iterate

/-!
# Where a key is

Seen through one key, the three tables are a single slot: empty, or an entry and the generation it
lies in. Every operation moves the slot of its own key in one simple way and leaves the slots of all
other keys alone, apart from the rotations it makes; those move every slot by the same number of
generations.

That the tables really are that simple rests on one invariant: no key is in two of them. A lookup,
an insert and a removal each look into the older tables only until they find the key, so each of
them relies on the invariant and has to keep it.
-/

namespace GenerationalCache

/-- The generation of a key that was last touched `n` rotations ago, none when it is gone. -/
def Generation.ofAge? : Nat → Option Generation
  | 0 => some .primary
  | 1 => some .secondary
  | 2 => some .tertiary
  | _ + 3 => none

theorem Generation.ofAge?_eq_some {n : Nat} {g : Generation} :
    Generation.ofAge? n = some g ↔ g.age = n := by
  match n with
  | 0 | 1 | 2 => cases g <;> simp [Generation.ofAge?, Generation.age]
  | n + 3 => cases g <;> simp [Generation.ofAge?, Generation.age]

@[simp] theorem Generation.ofAge?_age (g : Generation) : Generation.ofAge? g.age = some g :=
  Generation.ofAge?_eq_some.mpr rfl

theorem Generation.ofAge?_eq_none {n : Nat} : Generation.ofAge? n = none ↔ 2 < n := by
  match n with
  | 0 | 1 | 2 => simp [Generation.ofAge?]
  | n + 3 => simp [Generation.ofAge?]

theorem Generation.age_le (g : Generation) : g.age ≤ 2 := by cases g <;> decide

variable {K V : Type} [Ord K]

namespace Tables

/-- The table of a generation. -/
def table (t : Tables K V) : Generation → Table K V
  | .primary => t.primary
  | .secondary => t.secondary
  | .tertiary => t.tertiary

/-- No key is in two tables. -/
structure Unique (t : Tables K V) : Prop where
  /-- A key of the primary table is not in the secondary one. -/
  primary_secondary : ∀ k, k ∈ t.primary → k ∉ t.secondary
  /-- A key of the primary table is not in the tertiary one. -/
  primary_tertiary : ∀ k, k ∈ t.primary → k ∉ t.tertiary
  /-- A key of the secondary table is not in the tertiary one. -/
  secondary_tertiary : ∀ k, k ∈ t.secondary → k ∉ t.tertiary

theorem unique_empty : (empty : Tables K V).Unique := by
  constructor <;> simp [empty]

/-- The generation that a key is in, and its entry there. -/
def slot (t : Tables K V) (k : K) : Option (Generation × Entry V) :=
  (t.primary[k]?.map (Prod.mk .primary)).or
    ((t.secondary[k]?.map (Prod.mk .secondary)).or (t.tertiary[k]?.map (Prod.mk .tertiary)))

theorem find?_eq (t : Tables K V) (k : K) : t.find? k = (t.slot k).map Prod.snd := by
  simp only [find?, slot]
  cases t.primary[k]? <;> cases t.secondary[k]? <;> cases t.tertiary[k]? <;> rfl

/-- A slot after `r` rotations. -/
def aged (r : Nat) : Option (Generation × Entry V) → Option (Generation × Entry V)
  | none => none
  | some (g, e) => (Generation.ofAge? (g.age + r)).map (·, e)

@[simp] theorem aged_none (r : Nat) : aged r (none : Option (Generation × Entry V)) = none := rfl

@[simp] theorem aged_zero (x : Option (Generation × Entry V)) : aged 0 x = x := by
  rcases x with _ | ⟨g, e⟩ <;> simp [aged]

/-- Rotations add up. -/
theorem aged_aged (r s : Nat) (x : Option (Generation × Entry V)) :
    aged s (aged r x) = aged (r + s) x := by
  rcases x with _ | ⟨g, e⟩
  · rfl
  · simp only [aged]
    cases h : Generation.ofAge? (g.age + r) with
    | none =>
        -- gone after the first rotations, and no further one brings it back
        have := Generation.ofAge?_eq_none.mp h
        simp [Generation.ofAge?_eq_none.mpr (show 2 < g.age + (r + s) by omega)]
    | some g' =>
        have := Generation.ofAge?_eq_some.mp h
        simp [this, Nat.add_assoc]

theorem aged_eq_some {r : Nat} {x : Option (Generation × Entry V)} {g' : Generation}
    {e : Entry V} :
    aged r x = some (g', e) ↔ ∃ g, x = some (g, e) ∧ g'.age = g.age + r := by
  rcases x with _ | ⟨g, e'⟩
  · simp
  · simp only [aged, Option.map_eq_some_iff, Generation.ofAge?_eq_some, Prod.mk.injEq,
      Option.some.injEq]
    constructor
    · rintro ⟨g'', hg, rfl, rfl⟩
      exact ⟨g, ⟨rfl, rfl⟩, hg⟩
    · rintro ⟨g'', ⟨rfl, rfl⟩, hg⟩
      exact ⟨g', hg, rfl, rfl⟩

theorem fst_aged (r : Nat) (x : Option (Generation × Entry V)) :
    (aged r x).map Prod.fst =
      (x.map Prod.fst).bind fun g => Generation.ofAge? (g.age + r) := by
  rcases x with _ | ⟨g, e⟩
  · rfl
  · simp [aged, Function.comp_def]

/-! ## Rotations -/

theorem Unique.rotate {t : Tables K V} (h : t.Unique) : t.rotate.2.Unique where
  primary_secondary := by simp [Tables.rotate]
  primary_tertiary := by simp [Tables.rotate]
  secondary_tertiary := h.primary_secondary

/-- Making room rotates some number of times and does nothing else. -/
theorem makeRoomWithin_snd (limit : EntryLimit) (k : K) (steps : Nat) (t : Tables K V) :
    (t.makeRoomWithin limit k steps).2 =
      (fun t => t.rotate.2)^[(t.makeRoomWithin limit k steps).1.length] t := by
  induction steps generalizing t with
  | zero => rfl
  | succ steps ih =>
      unfold makeRoomWithin
      split
      · exact ih t.rotate.2
      · rfl

theorem Unique.iterate_rotate {t : Tables K V} (h : t.Unique) (n : Nat) :
    ((fun t => t.rotate.2)^[n] t).Unique := by
  induction n with
  | zero => exact h
  | succ n ih =>
      rw [Function.iterate_succ_apply']
      exact ih.rotate

theorem Unique.makeRoom {t : Tables K V} (h : t.Unique) (limit : EntryLimit) (k : K) :
    (t.makeRoom limit k).2.Unique := by
  rw [Tables.makeRoom, makeRoomWithin_snd]
  exact h.iterate_rotate _

/-! ## Taking a key out of the older tables -/

@[simp] theorem takeOlder_primary (t : Tables K V) (k : K) :
    (t.takeOlder k).2.primary = t.primary := by
  unfold takeOlder
  split
  · rfl
  · split <;> rfl

theorem takeOlder_fst (t : Tables K V) (k : K) :
    (t.takeOlder k).1 = t.secondary[k]?.or t.tertiary[k]? := by
  unfold takeOlder
  split
  · next h => simp [h]
  · next h => split <;> next h' => simp [h, h']

theorem lookup_fst (t : Tables K V) (k : K) (fresh : Entry V) :
    (t.lookup k fresh).1 = (t.find? k).getD fresh := by
  unfold lookup find?
  split
  · next h => simp [h]
  · next h => simp [h, takeOlder_fst]

theorem insert_fst (t : Tables K V) (k : K) (e : Entry V) : (t.insert k e).1 = t.find? k := by
  simp [insert, find?, takeOlder_fst, Option.or_assoc]

theorem remove_fst (t : Tables K V) (k : K) : (t.remove k).1 = t.find? k := by
  unfold remove find?
  split
  · next h => simp [h]
  · next h => simp [h, takeOlder_fst]

variable [Std.TransOrd K]

theorem generationOf?_eq (t : Tables K V) (k : K) :
    t.generationOf? k = (t.slot k).map Prod.fst := by
  simp only [generationOf?, slot, Std.TreeMap.contains_eq_isSome_getElem?]
  cases t.primary[k]? <;> cases t.secondary[k]? <;> cases t.tertiary[k]? <;> rfl

@[simp] theorem slot_empty (k : K) : (empty : Tables K V).slot k = none := by
  simp [slot, empty]

/-- A rotation moves every slot one generation down. -/
theorem slot_rotate (t : Tables K V) (k : K) : t.rotate.2.slot k = aged 1 (t.slot k) := by
  simp only [rotate, slot]
  cases t.primary[k]? <;> cases t.secondary[k]? <;> cases t.tertiary[k]? <;>
    simp [aged, Generation.age, Generation.ofAge?]

theorem slot_iterate_rotate (n : Nat) (t : Tables K V) (k : K) :
    ((fun t => t.rotate.2)^[n] t).slot k = aged n (t.slot k) := by
  induction n with
  | zero => exact (aged_zero _).symm
  | succ n ih => rw [Function.iterate_succ_apply', slot_rotate, ih, aged_aged]

/-- Making room ages every slot, also that of the key for which it is made. -/
theorem slot_makeRoom (t : Tables K V) (limit : EntryLimit) (k k' : K) :
    (t.makeRoom limit k).2.slot k' = aged (t.makeRoom limit k).1.length (t.slot k') := by
  rw [makeRoom, makeRoomWithin_snd]
  exact slot_iterate_rotate _ t k'

/-- The slot of a key is its entry in any table. -/
theorem Unique.slot_eq_some {t : Tables K V} (h : t.Unique) {k : K} {g : Generation} {e : Entry V} :
    t.slot k = some (g, e) ↔ (t.table g)[k]? = some e := by
  obtain ⟨h₁₂, h₁₃, h₂₃⟩ := h
  have h₁₂ := h₁₂ k
  have h₁₃ := h₁₃ k
  have h₂₃ := h₂₃ k
  simp only [Std.TreeMap.mem_iff_isSome_getElem?] at h₁₂ h₁₃ h₂₃
  unfold slot
  -- at most one of the three tables has the key
  cases h₁ : t.primary[k]? with
  | some e₁ =>
      rw [h₁] at h₁₂ h₁₃
      cases g <;> simp_all [table]
  | none =>
      cases h₂ : t.secondary[k]? with
      | some e₂ =>
          rw [h₂] at h₂₃
          cases g <;> simp_all [table]
      | none => cases g <;> simp_all [table]

variable [Std.LawfulEqOrd K]

theorem getElem?_takeOlder_of_ne {t : Tables K V} {k k' : K} (h : k' ≠ k) :
    (t.takeOlder k).2.secondary[k']? = t.secondary[k']? ∧
      (t.takeOlder k).2.tertiary[k']? = t.tertiary[k']? := by
  unfold takeOlder
  split
  · simp [Std.TreeMap.getElem?_erase, Ne.symm h]
  · split <;> simp [Std.TreeMap.getElem?_erase, Ne.symm h]

/-- A key that is in no two tables is in no older table once it is taken out of one. -/
theorem Unique.takeOlder {t : Tables K V} (h : t.Unique) (k : K) :
    (t.takeOlder k).2.Unique ∧
      k ∉ (t.takeOlder k).2.secondary ∧ k ∉ (t.takeOlder k).2.tertiary := by
  obtain ⟨h₁, h₂, h₃⟩ := h
  unfold Tables.takeOlder
  split
  · -- it was in the secondary table, so there is no second entry in the tertiary one
    refine ⟨⟨?_, h₂, ?_⟩, ?_, ?_⟩ <;> grind
  · split
    · refine ⟨⟨h₁, ?_, ?_⟩, ?_, ?_⟩ <;> grind
    · exact ⟨⟨h₁, h₂, h₃⟩, by grind, by grind⟩

/-- A key that is in no older table may be put into the primary one. -/
theorem Unique.putPrimary {t : Tables K V} (h : t.Unique) {k : K} (e : Entry V)
    (h₂ : k ∉ t.secondary) (h₃ : k ∉ t.tertiary) : (t.putPrimary k e).Unique := by
  obtain ⟨h₁₂, h₁₃, h₂₃⟩ := h
  constructor <;> simp only [Tables.putPrimary] <;> grind

theorem slot_putPrimary_self (t : Tables K V) (k : K) (e : Entry V) :
    (t.putPrimary k e).slot k = some (.primary, e) := by
  simp [putPrimary, slot]

theorem slot_putPrimary_of_ne {t : Tables K V} {k k' : K} (e : Entry V) (h : k' ≠ k) :
    (t.putPrimary k e).slot k' = t.slot k' := by
  simp [putPrimary, slot, Std.TreeMap.getElem?_insert, Ne.symm h]

theorem slot_takeOlder_of_ne {t : Tables K V} {k k' : K} (h : k' ≠ k) :
    (t.takeOlder k).2.slot k' = t.slot k' := by
  obtain ⟨h₂, h₃⟩ := getElem?_takeOlder_of_ne (t := t) h
  simp [slot, h₂, h₃]

/-! ## Lookups -/

/-- A lookup brings its key into the primary table, with its entry or with the one reserved. -/
theorem slot_lookup_self (t : Tables K V) (k : K) (fresh : Entry V) :
    (t.lookup k fresh).2.slot k = some (.primary, (t.find? k).getD fresh) := by
  rw [← lookup_fst]
  unfold lookup
  split
  · next h => simp [slot, h]
  · exact slot_putPrimary_self _ _ _

theorem slot_lookup_of_ne {t : Tables K V} {k k' : K} (fresh : Entry V) (h : k' ≠ k) :
    (t.lookup k fresh).2.slot k' = t.slot k' := by
  unfold lookup
  split
  · rfl
  · exact (slot_putPrimary_of_ne _ h).trans (slot_takeOlder_of_ne h)

theorem Unique.lookup {t : Tables K V} (h : t.Unique) (k : K) (fresh : Entry V) :
    (t.lookup k fresh).2.Unique := by
  unfold Tables.lookup
  split
  · exact h
  · obtain ⟨hu, h₂, h₃⟩ := h.takeOlder k
    exact hu.putPrimary _ h₂ h₃

/-! ## Inserts -/

theorem slot_insert_self (t : Tables K V) (k : K) (e : Entry V) :
    (t.insert k e).2.slot k = some (.primary, e) := slot_putPrimary_self _ _ _

theorem slot_insert_of_ne {t : Tables K V} {k k' : K} (e : Entry V) (h : k' ≠ k) :
    (t.insert k e).2.slot k' = t.slot k' :=
  (slot_putPrimary_of_ne _ h).trans (slot_takeOlder_of_ne h)

theorem Unique.insert {t : Tables K V} (h : t.Unique) (k : K) (e : Entry V) :
    (t.insert k e).2.Unique := by
  obtain ⟨hu, h₂, h₃⟩ := h.takeOlder k
  exact hu.putPrimary e h₂ h₃

/-! ## Removals -/

/-- A removal empties the slot of its key. This is where a key in two tables would come back. -/
theorem slot_remove_self {t : Tables K V} (h : t.Unique) (k : K) :
    (t.remove k).2.slot k = none := by
  obtain ⟨-, h₂, h₃⟩ := h.takeOlder k
  obtain ⟨h₁₂, h₁₃, -⟩ := h
  unfold remove
  split
  · -- only the primary table is looked at, and that is enough
    have hk : k ∈ t.primary := by grind
    have := h₁₂ k hk
    have := h₁₃ k hk
    simp_all [slot]
  · simp_all [slot]

theorem slot_remove_of_ne {t : Tables K V} {k k' : K} (h : k' ≠ k) :
    (t.remove k).2.slot k' = t.slot k' := by
  unfold remove
  split
  · simp [slot, Std.TreeMap.getElem?_erase, Ne.symm h]
  · exact slot_takeOlder_of_ne h

theorem Unique.remove {t : Tables K V} (h : t.Unique) (k : K) : (t.remove k).2.Unique := by
  unfold Tables.remove
  split
  · obtain ⟨h₁, h₂, h₃⟩ := h
    constructor <;> grind
  · exact (h.takeOlder k).1

end Tables

end GenerationalCache
