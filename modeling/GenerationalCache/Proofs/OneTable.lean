import GenerationalCache.Proofs.Usage
import Mathlib.Data.Set.Card

/-!
# Every key is in one table

A cache reports how many keys it holds, and how many in each generation, by the sizes of its tables,
and the generation of a key by the first table that has it. The two agree only because no key is in
two tables: otherwise a key would be counted twice, and a removal, which empties the first table
that has the key, would bring the older entry back.

The tables of a new cache share no key, every critical section keeps it so, and between critical
sections the tables do not change. So it holds in every state of every run, also in those that a
listener sees from inside a call.
-/

namespace GenerationalCache

variable {K V : Type} [Ord K]

/-! ## Sizes count keys -/

namespace Table

variable [Std.TransOrd K] [Std.LawfulEqOrd K]

/-- The keys of a table, as a finite set. -/
theorem finite_keys (t : Table K V) : {k | k ∈ t}.Finite := by
  classical
  refine t.keys.toFinset.finite_toSet.subset fun k hk => ?_
  simpa using hk

theorem ncard_keys (t : Table K V) : {k | k ∈ t}.ncard = t.size := by
  classical
  have hkeys : {k | k ∈ t} = (t.keys.toFinset : Set K) := by
    ext k
    simp
  rw [hkeys, Set.ncard_coe_finset, List.toFinset_card_of_nodup t.nodup_keys,
    Std.TreeMap.length_keys]

end Table

namespace Tables

theorem get_sizes (t : Tables K V) (g : Generation) : t.sizes.get g = (t.table g).size := by
  cases g <;> rfl

variable [Std.TransOrd K]

/-- No key is in two tables, so the table that has a key is its generation. -/
theorem Unique.generationOf?_eq_some {t : Tables K V} (h : t.Unique) {k : K} {g : Generation} :
    t.generationOf? k = some g ↔ k ∈ t.table g := by
  rw [generationOf?_eq, Option.map_eq_some_iff, Std.TreeMap.mem_iff_isSome_getElem?,
    Option.isSome_iff_exists]
  constructor
  · rintro ⟨⟨g', e⟩, hs, rfl⟩
    exact ⟨e, h.slot_eq_some.mp hs⟩
  · rintro ⟨e, he⟩
    exact ⟨(g, e), h.slot_eq_some.mpr he, rfl⟩

/-- The keys of a cache are those of its three tables. -/
theorem Unique.keys_eq {t : Tables K V} (h : t.Unique) :
    {k | t.generationOf? k ≠ none} =
      {k | k ∈ t.primary} ∪ {k | k ∈ t.secondary} ∪ {k | k ∈ t.tertiary} := by
  ext k
  have hsome : t.generationOf? k ≠ none ↔ ∃ g, t.generationOf? k = some g :=
    Option.ne_none_iff_exists'
  simp only [Set.mem_ofPred_eq, Set.mem_union, hsome, h.generationOf?_eq_some]
  constructor
  · rintro ⟨g, hg⟩
    cases g with
    | primary => exact .inl (.inl hg)
    | secondary => exact .inl (.inr hg)
    | tertiary => exact .inr hg
  · rintro ((hk | hk) | hk)
    · exact ⟨.primary, hk⟩
    · exact ⟨.secondary, hk⟩
    · exact ⟨.tertiary, hk⟩

/-- A removal tells whether the key was there. -/
theorem isSome_remove (t : Tables K V) (k : K) :
    (t.remove k).1.isSome = (t.generationOf? k).isSome := by
  rw [remove_fst, find?_eq, generationOf?_eq, Option.isSome_map, Option.isSome_map]

variable [Std.LawfulEqOrd K]

/-- The size of a generation is the number of keys in it. -/
theorem Unique.get_sizes_eq_ncard {t : Tables K V} (h : t.Unique) (g : Generation) :
    t.sizes.get g = {k | t.generationOf? k = some g}.ncard := by
  simp only [h.generationOf?_eq_some]
  rw [Table.ncard_keys, get_sizes]

theorem Unique.finite_keys {t : Tables K V} (h : t.Unique) :
    {k | t.generationOf? k ≠ none}.Finite := by
  rw [h.keys_eq]
  exact (t.primary.finite_keys.union t.secondary.finite_keys).union t.tertiary.finite_keys

/-- The size of a cache is the number of its keys, for none is counted twice. -/
theorem Unique.total_sizes_eq_ncard {t : Tables K V} (h : t.Unique) :
    t.sizes.total = {k | t.generationOf? k ≠ none}.ncard := by
  have h₁₂ : Disjoint {k | k ∈ t.primary} {k | k ∈ t.secondary} :=
    Set.disjoint_left.mpr h.primary_secondary
  have h₃ : Disjoint ({k | k ∈ t.primary} ∪ {k | k ∈ t.secondary}) {k | k ∈ t.tertiary} := by
    rw [Set.disjoint_union_left]
    exact ⟨Set.disjoint_left.mpr h.primary_tertiary, Set.disjoint_left.mpr h.secondary_tertiary⟩
  -- the three sets are disjoint, so their sizes add up
  have hf₁ := t.primary.finite_keys
  have hf₂ := t.secondary.finite_keys
  rw [h.keys_eq, Set.ncard_union_eq h₃ (hf₁.union hf₂) t.tertiary.finite_keys,
    Set.ncard_union_eq h₁₂ hf₁ hf₂]
  simp only [Table.ncard_keys]
  rfl

/-- After a removal the key is in no table. -/
theorem Unique.generationOf?_remove {t : Tables K V} (h : t.Unique) (k : K) :
    (t.remove k).2.generationOf? k = none := by
  rw [generationOf?_eq, slot_remove_self h, Option.map_none]

end Tables

/-! ## In use -/

namespace Usage

variable [Std.TransOrd K] [Std.LawfulEqOrd K]

/-- In every reachable state no key is in two tables, nor was it when any critical section began. -/
theorem Reachable.unique {listeners : Nat} {limit : EntryLimit} {s : Usage K V}
    (h : Reachable listeners limit s) :
    s.cache.tables.Unique ∧ ∀ v ∈ s.history, v.found.tables.Unique := by
  have hc := h.sound.chronicle
  refine ⟨hc.unique Tables.unique_empty, fun v hv => ?_⟩
  obtain ⟨earlier, later, -, hbefore⟩ := hc.of_mem hv
  exact hbefore.unique Tables.unique_empty

/-- **Every key is in at most one table.** So in every reachable state the number of keys is the
number of those that have a generation, the size of a generation is the number of keys that are in
it, and a removal leaves its key in no generation and tells whether it was in one before: every
removal that has run its critical section did so, and one that is called now and not disturbed
will. -/
theorem one_table {listeners : Nat} {limit : EntryLimit} {s : Usage K V}
    (h : Reachable listeners limit s) :
    let ops : Operations (LocalCache K V) K V := LocalCache.operations listeners
    s.cache.tables.Unique ∧
    {k | ops.generationOf? s.cache k ≠ none}.Finite ∧
    (ops.sizes s.cache).total = {k | ops.generationOf? s.cache k ≠ none}.ncard ∧
    (∀ g, (ops.sizes s.cache).get g = {k | ops.generationOf? s.cache k = some g}.ncard) ∧
    (∀ k found, ⟨.remove k, found⟩ ∈ s.history →
      ops.generationOf? (Visit.left ⟨.remove k, found⟩) k = none ∧
      ∀ answer, ⟨⟨.remove k, found⟩, answer⟩ ∈ s.answered →
        answer = .ok (ops.generationOf? found k).isSome) ∧
    ∀ k, ∃ s', Leads listeners s s' ∧ s'.history = s.history ++ [⟨.remove k, s.cache⟩] ∧
      ops.generationOf? s'.cache k = none ∧
      s'.answered = s.answered ++
        [⟨⟨.remove k, s.cache⟩, .ok (ops.generationOf? s.cache k).isSome⟩] := by
  intro ops
  obtain ⟨hu, hfound⟩ := h.unique
  refine ⟨hu, hu.finite_keys, hu.total_sizes_eq_ncard, hu.get_sizes_eq_ncard, ?_, fun k => ?_⟩
  · intro k found hv
    refine ⟨(hfound _ hv).generationOf?_remove k, fun answer ha => ?_⟩
    -- whatever else was going on, the answer is the one that the critical section settled
    have hanswer : answer = Visit.answer ⟨.remove k, found⟩ := (h.sound.answered _ ha).2
    rw [hanswer]
    exact congrArg Except.ok (found.tables.isSome_remove k)
  · have hok : Visit.answer ⟨.remove k, s.cache⟩ = .ok (s.cache.tables.generationOf? k).isSome :=
      congrArg Except.ok (s.cache.tables.isSome_remove k)
    have hleads := leads_alone listeners s (.remove k)
    rw [hok] at hleads
    exact ⟨_, hleads, rfl, hu.generationOf?_remove k, rfl⟩

/-- After two inserts with a sweep between them the cache has two keys, in two generations. -/
theorem one_table_two_keys :
    ∃ s : Usage Nat String, Reachable 1 .unbounded s ∧
      s.cache.tables.generationOf? 7 = some .secondary ∧
      s.cache.tables.generationOf? 8 = some .primary ∧
      {k | s.cache.tables.generationOf? k ≠ none}.ncard = 2 := by
  have h : Reachable 1 .unbounded _ :=
    ((leads_alone 1 (start .unbounded) (.insert 7 "seven")).trans
      (leads_alone 1 _ .evictStale)).trans (leads_alone 1 _ (.insert 8 "eight"))
  refine ⟨_, h, by decide, by decide, ?_⟩
  obtain ⟨-, -, hsize, -⟩ := one_table h
  exact hsize.symm.trans (by decide)

end Usage

end GenerationalCache
