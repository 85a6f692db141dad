import GenerationalCache.Proofs.Revocation
import GenerationalCache.Proofs.Counting

/-!
# Removing every key at once

To clear a cache is to drain its three tables in one critical section. To remove its keys one after
the other is to search the tables for each of them, in as many critical sections. The two come to
the same: the tables are empty, as many keys have been counted, and the same values have been
reported, though once in a single batch and once in a batch for each value.

That tables without keys are the empty tables makes the two ends equal, not just alike. The rest is
an induction on the list of keys, whatever their order and wherever they are: a removal leaves a
cache whose keys are those of the rest of the list, with the values that they had. For the values of
the one batch it is enough to know that the keys of the list are those of the tables.
-/

namespace GenerationalCache

variable {σ K V : Type}

/-- Calls operations one after the other, and collects their answers. -/
def World.inTurn {p : Provider K} (serializer : Serializer V) (listeners : Nat)
    (ops : Operations σ K V) :
    List (Call K V) → World p σ V → List ((c : Call K V) × c.Answer) × World p σ V
  | [], w => ([], w)
  | c :: cs, w =>
    let (answer, w') := (ops.program c).run (act serializer listeners) w
    let (answers, w'') := inTurn serializer listeners ops cs w'
    (⟨c, answer⟩ :: answers, w'')

variable [Ord K]

/-! ## Tables without keys -/

theorem Table.eq_empty_of_isEmpty {t : Table K V} (h : t.isEmpty = true) : t = ∅ := by
  obtain ⟨⟨tree, wf⟩⟩ := t
  cases tree with
  | leaf => rfl
  | inner => cases h

theorem Tables.length_entries (t : Tables K V) : t.entries.length = t.size := by
  simp only [entries, List.length_append, Table.values_eq_map_snd, List.length_map,
    Std.TreeMap.length_toList]
  rfl

theorem Tables.entries_eq_map_snd (t : Tables K V) : t.entries = t.bindings.map Prod.snd := by
  simp only [entries, bindings, List.map_append, Table.values_eq_map_snd]

section

variable [Std.TransOrd K]

theorem Table.eq_empty {t : Table K V} (h : ∀ k : K, t[k]? = none) : t = ∅ := by
  refine eq_empty_of_isEmpty (Std.TreeMap.isEmpty_iff_forall_not_mem.mpr fun k hk => ?_)
  rw [Std.TreeMap.mem_iff_isSome_getElem?, h k] at hk
  cases hk

/-- There are no other tables without keys than the empty ones. -/
theorem Tables.eq_empty {t : Tables K V} (h : ∀ k, t.slot k = none) : t = empty := by
  obtain ⟨primary, secondary, tertiary⟩ := t
  simp only [slot, Option.or_eq_none_iff, Option.map_eq_none_iff, forall_and] at h
  obtain ⟨h₁, h₂, h₃⟩ := h
  obtain rfl := Table.eq_empty h₁
  obtain rfl := Table.eq_empty h₂
  obtain rfl := Table.eq_empty h₃
  rfl

/-- The keys are those with a place in the tables. -/
theorem Tables.Unique.mem_keys_iff [Std.LawfulEqOrd K] {t : Tables K V} (h : t.Unique) (k : K) :
    k ∈ t.bindings.map Prod.fst ↔ t.generationOf? k ≠ none := by
  rw [generationOf?_eq, Ne, Option.map_eq_none_iff, ← Ne, ← Option.isSome_iff_ne_none,
    ← Option.isSome_map (f := Prod.snd), ← find?_eq, Option.isSome_iff_exists]
  simp [h.mem_bindings]

end

/-! ## All keys of a cache -/

/-- The list has all keys of a cache, each of them once. -/
structure LocalCache.Enumerates (ks : List K) (c : LocalCache K V) : Prop where
  /-- No key comes twice. -/
  nodup : ks.Nodup
  /-- The keys of the list are those that some generation has. -/
  mem_iff : ∀ k, k ∈ ks ↔ c.tables.generationOf? k ≠ none

namespace LocalCache.Enumerates

variable {c : LocalCache K V} {k : K} {ks : List K} [Std.TransOrd K]

theorem mem_iff_slot (h : Enumerates ks c) (k : K) : k ∈ ks ↔ c.tables.slot k ≠ none := by
  rw [h.mem_iff, Tables.generationOf?_eq, Ne, Option.map_eq_none_iff]

theorem tables_eq_empty (h : Enumerates [] c) : c.tables = .empty :=
  Tables.eq_empty fun k => not_not.mp (mt (h.mem_iff_slot k).mpr List.not_mem_nil)

variable [Std.LawfulEqOrd K]

/-- They are the keys of the tables. -/
theorem perm_keys (h : Enumerates ks c) (hu : c.tables.Unique) :
    ks.Perm (c.tables.bindings.map Prod.fst) :=
  (List.perm_ext_iff_of_nodup h.nodup hu.nodup_bindings).mpr fun k =>
    (h.mem_iff k).trans (hu.mem_keys_iff k).symm

theorem of_perm (hu : c.tables.Unique) (h : ks.Perm (c.tables.bindings.map Prod.fst)) :
    Enumerates ks c :=
  ⟨h.nodup_iff.mpr hu.nodup_bindings, fun k => h.mem_iff.trans (hu.mem_keys_iff k)⟩

theorem length_entries (h : Enumerates ks c) (hu : c.tables.Unique) :
    c.tables.entries.length = ks.length := by
  rw [(h.perm_keys hu).length_eq, Tables.entries_eq_map_snd, List.length_map, List.length_map]

/-- The values in the tables are those under these keys. -/
theorem resident_perm (h : Enumerates ks c) (hu : c.tables.Unique) :
    c.tables.resident.Perm (ks.filterMap c.value?) := by
  have hvalues : c.tables.resident = (c.tables.bindings.map Prod.fst).filterMap c.value? := by
    rw [Tables.resident_eq_filterMap, List.filterMap_map]
    refine List.filterMap_congr fun b hb => ?_
    rw [Function.comp_apply, value?, hu.mem_bindings.mp hb, Option.bind_some]
  rw [hvalues]
  exact ((h.perm_keys hu).filterMap _).symm

/-- Without the first key, the cache has the others, with the values that they had. -/
theorem rest (h : Enumerates (k :: ks) c) (hu : c.tables.Unique) :
    Enumerates ks (c.remove k).2 ∧ ∀ k' ∈ ks, (c.remove k).2.value? k' = c.value? k' := by
  obtain ⟨hk, hks⟩ := List.nodup_cons.mp h.nodup
  have hother : ∀ k', k' ≠ k → (c.remove k).2.tables.slot k' = c.tables.slot k' :=
    fun _ hk' => Tables.slot_remove_of_ne hk'
  refine ⟨⟨hks, fun k' => ?_⟩, fun k' hk' => ?_⟩
  · rw [Tables.generationOf?_eq, Ne, Option.map_eq_none_iff]
    by_cases hk' : k' = k
    · subst hk'
      exact iff_of_false hk (not_not.mpr (Tables.slot_remove_self hu k'))
    · rw [hother k' hk', ← Ne, ← h.mem_iff_slot, List.mem_cons, or_iff_right hk']
  · have hne : k' ≠ k := by
      rintro rfl
      exact hk hk'
    rw [value?, value?, Tables.find?_eq, Tables.find?_eq, hother k' hne]

end LocalCache.Enumerates

/-! ## At once, and one by one -/

theorem Batch.ofValues_toList (value : Option V) (reason : Reason) :
    ofValues value.toList reason = value.toList.map fun x => ⟨[x], reason⟩ := by
  cases value <;> rfl

/-- The removal of a key that is there says so, counts it, and reports its value if it has one. -/
theorem Visit.remove_of_isSome [Std.TransOrd K] {c : LocalCache K V} {k : K}
    (h : c.tables.slot k ≠ none) :
    (Visit.mk (.remove k) c).answer = .ok true ∧
      (c.remove k).2.counters = c.counters.invalidated 1 ∧
      (Visit.mk (.remove k) c).batches =
        (c.value? k).toList.map fun x => ⟨[x], .invalidated⟩ := by
  have hremoved : (c.remove k).1 = c.tables.find? k := Tables.remove_fst _ k
  have hsome : (c.remove k).1.isSome = true := by
    rw [hremoved, Tables.find?_eq, Option.isSome_map, Option.isSome_iff_ne_none]
    exact h
  have hcounters : (c.remove k).2.counters =
      if (c.remove k).1.isSome then c.counters.invalidated 1 else c.counters := rfl
  have hbatches : (Visit.mk (.remove k) c).batches =
      Batch.ofValues ((c.remove k).1.bind Entry.value).toList .invalidated := rfl
  refine ⟨congrArg Except.ok hsome, ?_, ?_⟩
  · rw [hcounters, if_pos hsome]
  · rw [hbatches, hremoved, Batch.ofValues_toList]
    rfl

namespace World

variable {p : Provider K} {serializer : Serializer V} {listeners : Nat}
  {w : World p (LocalCache K V) V} {ks : List K}

/-- The world when the cache has lost all its keys, which were `n`, and has reported these batches.
-/
def emptied (listeners n : Nat) (batches : List (Batch V)) (w : World p (LocalCache K V) V) :
    World p (LocalCache K V) V :=
  { w with
    cache := { w.cache with tables := .empty, counters := w.cache.counters.invalidated n }
    told := w.told ++ deliveries listeners batches }

/-- When there were no keys, this is the same world. -/
theorem emptied_zero (h : w.cache.tables = .empty) : w.emptied listeners 0 [] = w := by
  rw [emptied, Counters.invalidated_zero, ← h, deliveries, List.flatMap_nil, List.append_nil]

/-- The cache does what the first operation requires, and goes on. -/
theorem inTurn_cons {c : Call K V} {cs : List (Call K V)} {w' : World p (LocalCache K V) V}
    {answers : List ((c : Call K V) × c.Answer)}
    (rest : inTurn serializer listeners (LocalCache.operations listeners) cs { w with
        cache := (Visit.mk c w.cache).left
        told := w.told ++ deliveries listeners (Visit.mk c w.cache).batches } = (answers, w')) :
    inTurn serializer listeners (LocalCache.operations listeners) (c :: cs) w =
      (⟨c, (Visit.mk c w.cache).answer⟩ :: answers, w') := by
  rw [inTurn, run_program (perform_local c w)]
  exact congrArg (fun r => (_ :: r.1, r.2)) rest

/-- Clearing empties the tables and reports all values in one batch. -/
theorem inTurn_clear :
    inTurn serializer listeners (LocalCache.operations listeners) [.clear] w =
      ([⟨.clear, .ok ()⟩], w.emptied listeners w.cache.tables.entries.length
        (Batch.ofValues w.cache.tables.resident .invalidated)) :=
  inTurn_cons rfl

/-- **So does removing the keys, with a batch for each value.** -/
theorem inTurn_remove [Std.TransOrd K] [Std.LawfulEqOrd K] (hu : w.cache.tables.Unique)
    (h : LocalCache.Enumerates ks w.cache) :
    inTurn serializer listeners (LocalCache.operations listeners) (ks.map .remove) w =
      (ks.map fun k => ⟨.remove k, .ok true⟩, w.emptied listeners ks.length
        ((ks.filterMap w.cache.value?).map fun x => ⟨[x], .invalidated⟩)) := by
  induction ks generalizing w with
  | nil => exact congrArg (Prod.mk []) (emptied_zero h.tables_eq_empty).symm
  | cons k ks ih =>
      obtain ⟨hrest, hvalues⟩ := h.rest hu
      obtain ⟨hanswer, hcounters, hbatches⟩ :=
        Visit.remove_of_isSome ((h.mem_iff_slot k).mp List.mem_cons_self)
      have hfirst : (k :: ks).filterMap w.cache.value? =
          (w.cache.value? k).toList ++ ks.filterMap (w.cache.remove k).2.value? := by
        rw [List.filterMap_congr hvalues]
        cases hv : w.cache.value? k <;> simp [hv]
      have hlater := ih (w := { w with
        cache := (w.cache.remove k).2
        told := w.told ++ deliveries listeners (Visit.mk (.remove k) w.cache).batches })
        (hu.remove k) hrest
      refine (inTurn_cons hlater).trans (Prod.ext ?_ ?_)
      · rw [hanswer]
        rfl
      · -- what is counted and reported first comes before what the others add to it
        rw [hfirst, List.map_append, ← hbatches]
        simp only [emptied, hcounters, Counters.invalidated_add, List.length_cons,
          Nat.add_comm, deliveries, List.flatMap_append, List.append_assoc]
        rfl

/-- Clearing a cache that has lost all its keys changes nothing and reports nothing. -/
theorem inTurn_clear_emptied (n : Nat) (batches : List (Batch V)) :
    inTurn serializer listeners (LocalCache.operations listeners) [.clear]
        (w.emptied listeners n batches) =
      ([⟨.clear, .ok ()⟩], w.emptied listeners n batches) :=
  inTurn_clear.trans (congrArg (Prod.mk _) (emptied_zero rfl))

/-- What a listener has heard then. -/
theorem heard_emptied (n : Nat) (batches : List (Batch V)) {l : Nat} (hl : l < listeners) :
    (w.emptied listeners n batches).heard l = w.heard l ++ batches := by
  rw [heard, emptied, List.filterMap_append, filterMap_heardBy_deliveries, if_pos hl]
  rfl

/-- Two worlds that come from one: in the first its cache was cleared, in the second the keys of the
cache, which are those of the list, were removed one by one. -/
structure EmptiedAlike (listeners : Nat) (ks : List K)
    (w cleared removed : World p (LocalCache K V) V) : Prop where
  /-- There were as many keys, with or without a value. -/
  size : ks.length = w.cache.tables.size
  /-- The tables are empty, each key has been counted, and nothing else has changed. -/
  cache : cleared.cache =
    { w.cache with tables := .empty, counters := w.cache.counters.invalidated ks.length }
  /-- The caches are the same, down to every counter. -/
  same : removed.cache = cleared.cache
  /-- The values are reported all together, if there are any, -/
  atOnce : ∀ l < listeners, ∃ values : List V, values.Perm (ks.filterMap w.cache.value?) ∧
    cleared.heard l = w.heard l ++ Batch.ofValues values .invalidated
  /-- or each of them by itself. -/
  oneByOne : ∀ l < listeners, removed.heard l =
    w.heard l ++ (ks.filterMap w.cache.value?).map fun x => ⟨[x], .invalidated⟩
  /-- It is the same values. -/
  values : ∀ l < listeners, ((cleared.heard l).flatMap (Batch.valuesUnder .invalidated)).Perm
    ((removed.heard l).flatMap (Batch.valuesUnder .invalidated))

end World

namespace Usage

variable [Std.TransOrd K] [Std.LawfulEqOrd K]

/-- **To clear a cache is to remove each of its keys.** This is so in every reachable state and for
any order of the keys, when the listeners only listen. To clear the cache once more changes nothing
and reports nothing. -/
theorem clear_removes_each (p : Provider K) (serializer : Serializer V) {listeners : Nat}
    {limit : EntryLimit} {s : Usage K V} (hs : Reachable listeners limit s)
    {w : World p (LocalCache K V) V} (hw : w.cache = s.cache) {ks : List K}
    (hks : LocalCache.Enumerates ks w.cache) :
    let ops : Operations (LocalCache K V) K V := LocalCache.operations listeners
    ∃ cleared removed,
      w.inTurn serializer listeners ops [.clear] = ([⟨.clear, .ok ()⟩], cleared) ∧
      w.inTurn serializer listeners ops (ks.map .remove) =
        (ks.map fun k => ⟨.remove k, .ok true⟩, removed) ∧
      w.EmptiedAlike listeners ks cleared removed ∧
      cleared.inTurn serializer listeners ops [.clear] = ([⟨.clear, .ok ()⟩], cleared) := by
  intro ops
  have hu : w.cache.tables.Unique := hw ▸ hs.unique.1
  have hlength := hks.length_entries hu
  have hperm := hks.resident_perm hu
  refine ⟨_, _, World.inTurn_clear, World.inTurn_remove hu hks, ⟨?_, ?_, ?_, ?_, ?_, ?_⟩, ?_⟩
  · rw [← hlength, Tables.length_entries]
  · rw [hlength]
    rfl
  · rw [hlength]
    rfl
  · exact fun l hl => ⟨_, hperm, World.heard_emptied _ _ hl⟩
  · exact fun l hl => World.heard_emptied _ _ hl
  · intro l hl
    rw [World.heard_emptied _ _ hl, World.heard_emptied _ _ hl, List.flatMap_append,
      List.flatMap_append, Batch.flatMap_valuesUnder_ofValues, List.flatMap_map]
    refine List.Perm.append_left _ ?_
    simpa [Batch.valuesUnder] using hperm
  · exact World.inTurn_clear_emptied _ _

/-- Two values in different generations and a placeholder, with a list of the keys in no order. -/
theorem clear_removes_each_of_three :
    let p := Provider.inMemory Nat
    ∃ (s : Usage Nat String) (cleared removed : World p (LocalCache Nat String) String),
      Reachable 1 .unbounded s ∧
      World.EmptiedAlike 1 [9, 7, 8] { cache := s.cache } cleared removed ∧
      cleared.cache.counters = { misses := 1, inserts := 2, invalidations := 3, rotations := 1 } ∧
      cleared.heard 0 = [⟨["eight", "seven"], .invalidated⟩] ∧
      removed.heard 0 = [⟨["seven"], .invalidated⟩, ⟨["eight"], .invalidated⟩] := by
  intro p
  have hs : Reachable 1 .unbounded _ :=
    (((leads_alone 1 (start .unbounded) (.insert 7 "seven")).trans
      (leads_alone 1 _ .evictStale)).trans (leads_alone 1 _ (.insert 8 "eight"))).trans
      (leads_alone 1 _ (.lookup 9))
  have hks : LocalCache.Enumerates [9, 7, 8] _ := .of_perm hs.unique.1 (by decide +kernel)
  obtain ⟨cleared, removed, hclear, -, hemptied, -⟩ :=
    clear_removes_each p .bareText hs (w := { cache := _ }) rfl hks
  refine ⟨_, cleared, removed, hs, hemptied, ?_, ?_, ?_⟩
  · rw [hemptied.cache]
    decide +kernel
  · obtain rfl := congrArg Prod.snd hclear
    decide +kernel
  · rw [hemptied.oneByOne 0 (by decide)]
    decide +kernel

end Usage

end GenerationalCache
