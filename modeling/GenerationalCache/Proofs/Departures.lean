import GenerationalCache.Proofs.Residents
import GenerationalCache.Proofs.Serving

/-!
# How values leave

A critical section takes values out of the tables and puts them into the batches that its operation
has to report. Nothing else happens to a value: what a visit stores, together with what it found, is
what it leaves together with what it reports, each value as often as before. Added up over a
chronicle, every value that was ever stored is either still in the tables or in a batch.

A batch has a reason, and it is the true one. This needs the history, too: that a replaced value had
been stored under the key of the insert that replaces it is a fact about an earlier visit.
-/

namespace GenerationalCache

variable {K V : Type}

namespace Batch

theorem mem_ofValues {values : List V} {reason : Reason} {b : Batch V} :
    b ∈ ofValues values reason ↔ values ≠ [] ∧ b = ⟨values, reason⟩ := by
  unfold ofValues
  cases values <;> simp

/-- A batch that is not made would have held nothing. -/
@[simp] theorem flatMap_values_ofValues (values : List V) (reason : Reason) :
    (ofValues values reason).flatMap Batch.values = values := by
  unfold ofValues
  cases values <;> simp

end Batch

/-- An insert reports the victims of its rotations and the value that it displaced. -/
theorem Insertion.flatMap_values_batches (i : Insertion V) :
    i.batches.flatMap Batch.values =
      i.rotations.flatMap Rotation.victims ++ i.displaced.toList := by
  rw [batches, List.flatMap_append, List.flatMap_assoc, Batch.flatMap_values_ofValues]
  simp only [Rotation.batches, Batch.flatMap_values_ofValues]

variable [Ord K]

namespace Visit

/-- The batches that a visit has to report, with the visit. -/
def collected (v : Visit K V) : List (Visit K V × Batch V) := v.batches.map (v, ·)

/-- No batch is empty. -/
theorem values_ne_nil {v : Visit K V} {b : Batch V} (hb : b ∈ v.batches) : b.values ≠ [] := by
  have hof : ∃ values reason, b ∈ Batch.ofValues values reason := by
    obtain ⟨call, c⟩ := v
    cases call with
    | lookup k | get k | evictionRequired => exact absurd hb List.not_mem_nil
    | insert k x =>
        rcases List.mem_append.mp hb with hb | hb
        · obtain ⟨r, -, hr⟩ := List.mem_flatMap.mp hb
          exact ⟨_, _, hr⟩
        · exact ⟨_, _, hb⟩
    | remove k => exact ⟨_, _, hb⟩
    | clear => exact ⟨_, _, hb⟩
    | evictStale => exact ⟨_, _, hb⟩
  obtain ⟨values, reason, hb⟩ := hof
  obtain ⟨hne, rfl⟩ := Batch.mem_ofValues.mp hb
  exact hne

end Visit

/-- After these visits, a visit takes a value out of the tables for this reason. -/
inductive Dismisses (earlier : List (Visit K V)) : Visit K V → V → Reason → Prop where
  /-- An insert of the key under which the value was stored. -/
  | replaced {k : K} {x o : V} {found : LocalCache K V} (under : Serves k o earlier) :
      Dismisses earlier ⟨.insert k x, found⟩ o .replaced
  /-- A rotation inside an insert. -/
  | capacity {k : K} {x o : V} {found : LocalCache K V} {r : Rotation V}
      (rotation : r ∈ (found.insert k x).1.rotations) (victim : o ∈ r.victims) :
      Dismisses earlier ⟨.insert k x, found⟩ o .capacity
  /-- A sweep. -/
  | expired {o : V} {found : LocalCache K V} (victim : o ∈ found.rotate.1.victims) :
      Dismisses earlier ⟨.evictStale, found⟩ o .expired
  /-- A removal of the key under which the value was stored. -/
  | removed {k : K} {o : V} {found : LocalCache K V} (under : Serves k o earlier) :
      Dismisses earlier ⟨.remove k, found⟩ o .invalidated
  /-- A removal of all keys, the value being in the tables. -/
  | cleared {o : V} {found : LocalCache K V} (held : o ∈ found.tables.resident) :
      Dismisses earlier ⟨.clear, found⟩ o .invalidated

variable [Std.TransOrd K] [Std.LawfulEqOrd K]

/-- **A visit neither loses nor invents a value.** What it stores and what it found is what it
leaves and what it reports. -/
theorem Visit.balance {v : Visit K V} (h : v.found.tables.Unique) :
    (v.call.stored?.toList ++ v.found.tables.resident).Perm
      (v.left.tables.resident ++ v.batches.flatMap Batch.values) := by
  obtain ⟨call, c⟩ := v
  cases call with
  | lookup k | get k =>
      have hl := (c.tables.resident_lookup k c.nextId).symm
      simpa [Visit.left, Visit.batches, Call.stored?, LocalCache.lookup] using hl
  | insert k x =>
      have hroom := c.tables.resident_makeRoom c.limit k
      have hput := Tables.resident_insert (h.makeRoom c.limit k) k (.resolved c.nextId x)
      rw [← Tables.insert_fst _ k (.resolved c.nextId x)] at hput
      have hvalues := (c.insert k x).1.flatMap_values_batches
      simp only [Visit.left, Visit.batches, Call.stored?, hvalues]
      -- the victims were taken out first, and then one value took the place of another
      refine (hroom.append_left _).trans ?_
      rw [← List.append_assoc]
      refine (hput.append_right _).trans ?_
      rw [List.append_assoc]
      exact List.perm_append_comm.append_left _
  | remove k =>
      have hr := c.tables.resident_remove k
      rw [← Tables.remove_fst] at hr
      simpa [Visit.left, Visit.batches, Call.stored?, LocalCache.remove] using hr
  | clear =>
      have he : Entry.values (Tables.empty : Tables K V).entries = [] := rfl
      simp [Visit.left, Visit.batches, Call.stored?, LocalCache.clear, he, Tables.resident]
  | evictStale =>
      have hr := c.tables.resident_rotate
      simpa [Visit.left, Visit.batches, Call.stored?, LocalCache.rotate, Rotation.batches] using hr
  | evictionRequired => simp [Visit.left, Visit.batches, Call.stored?]

namespace Chronicle

variable {a c : LocalCache K V} {h : List (Visit K V)}

/-- **Every value that was stored is in the tables or in a batch**, as often as it was stored. -/
theorem balance (hc : Chronicle a h c) (ha : a.tables.Unique) :
    (h.filterMap (·.call.stored?) ++ a.tables.resident).Perm
      (c.tables.resident ++ (h.flatMap Visit.collected).flatMap (·.2.values)) := by
  induction hc with
  | nil => simp
  | @snoc h v hv ih =>
      have hvisit := Visit.balance (hv.unique ha)
      have hvalues : v.collected.flatMap (·.2.values) = v.batches.flatMap Batch.values := by
        rw [Visit.collected, List.flatMap_map]
      have hstored : List.filterMap (·.call.stored?) [v] = v.call.stored?.toList := by
        cases hs : v.call.stored? <;> simp [hs]
      rw [List.filterMap_append, hstored, List.flatMap_append, List.flatMap_append,
        List.flatMap_singleton, hvalues]
      classical
      refine List.perm_iff_count.mpr fun o => ?_
      have h₁ := ih.count_eq o
      have h₂ := hvisit.count_eq o
      simp only [List.count_append] at h₁ h₂ ⊢
      omega

/-- **Values leave for the reason that is reported.** -/
theorem dismisses {v : Visit K V} (hc : Chronicle a h v.found) (ha : a.tables.Unique)
    (hempty : ∀ k, a.tables.slot k = none) {b : Batch V} (hb : b ∈ v.batches) {o : V}
    (ho : o ∈ b.values) : Dismisses h v o b.reason := by
  obtain ⟨call, c⟩ := v
  have hserves : ∀ k, (c.tables.find? k).bind Entry.value = some o → Serves k o h :=
    fun k => (hc.value_eq_some_iff_serves ha (hempty k) o).mp
  cases call with
  | lookup k | get k | evictionRequired => exact absurd hb List.not_mem_nil
  | insert k x =>
      rcases List.mem_append.mp hb with hb | hb
      · obtain ⟨r, hr, hbr⟩ := List.mem_flatMap.mp hb
        obtain ⟨-, rfl⟩ := Batch.mem_ofValues.mp hbr
        exact .capacity hr ho
      · obtain ⟨-, rfl⟩ := Batch.mem_ofValues.mp hb
        refine .replaced (hserves k ?_)
        -- the rotations that made room only moved the entry that is displaced
        have hdisplaced : ((c.tables.makeRoom c.limit k).2.find? k).bind Entry.value = some o := by
          rw [← Tables.insert_fst _ k (.resolved c.nextId x)]
          exact Option.mem_toList.mp ho
        rw [Tables.find?_eq, Tables.slot_makeRoom] at hdisplaced
        obtain ⟨e, he, hv⟩ := Option.bind_eq_some_iff.mp hdisplaced
        obtain ⟨⟨g, e'⟩, hs, rfl⟩ := Option.map_eq_some_iff.mp he
        obtain ⟨g', hs', -⟩ := Tables.aged_eq_some.mp hs
        rw [Tables.find?_eq, hs']
        exact hv
  | remove k =>
      obtain ⟨-, rfl⟩ := Batch.mem_ofValues.mp hb
      refine .removed (hserves k ?_)
      rw [← Tables.remove_fst]
      exact Option.mem_toList.mp ho
  | clear =>
      obtain ⟨-, rfl⟩ := Batch.mem_ofValues.mp hb
      exact .cleared ho
  | evictStale =>
      obtain ⟨-, rfl⟩ := Batch.mem_ofValues.mp hb
      exact .expired ho

end Chronicle

end GenerationalCache
