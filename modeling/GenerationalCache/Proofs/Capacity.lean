import GenerationalCache.Proofs.OneTable
import Mathlib.Data.List.DropRight

/-!
# How full a cache gets

Only inserts look at the entry limit. An insert rotates while its key would be one too many, and the
size it then reckons with is the size it leaves, because no key is counted in two tables. A lookup
that finds nothing reserves a placeholder without asking; so between two inserts the cache may grow
past its limit, by one key for each such lookup and by nothing else.

The loop that makes room is only allowed three rotations. That is enough: after three of them every
table is empty, and the key that is to come fits any limit.
-/

namespace GenerationalCache

variable {K V : Type} [Ord K]

/-! ## Making room -/

namespace Tables

/-- Three rotations empty every table. -/
theorem sizeWith_rotate_thrice (t : Tables K V) (k : K) :
    ((fun t => t.rotate.2)^[3] t).sizeWith k ≤ 1 := by
  have hempty : (fun t : Tables K V => t.rotate.2)^[3] t = empty := rfl
  have hsize : (empty : Tables K V).size = 0 := rfl
  rw [hempty, sizeWith, hsize, Nat.zero_add]
  split <;> omega

theorem exceededBy_makeRoomWithin {limit : EntryLimit} {k : K} {steps : Nat} {t : Tables K V}
    (h : limit.exceededBy (((fun t => t.rotate.2)^[steps] t).sizeWith k) = false) :
    limit.exceededBy ((t.makeRoomWithin limit k steps).2.sizeWith k) = false := by
  induction steps generalizing t with
  | zero => exact h
  | succ steps ih =>
      unfold makeRoomWithin
      split
      · exact ih h
      · next hfits => exact Bool.eq_false_iff.mpr hfits

/-- Once room is made, the key fits. -/
theorem exceededBy_makeRoom (t : Tables K V) (limit : EntryLimit) (k : K) :
    limit.exceededBy ((t.makeRoom limit k).2.sizeWith k) = false :=
  exceededBy_makeRoomWithin (limit.exceededBy_of_le_one (t.sizeWith_rotate_thrice k))

/-- Without a limit there is always room. -/
theorem makeRoom_unbounded (t : Tables K V) (k : K) : t.makeRoom .unbounded k = ([], t) := by
  unfold makeRoom makeRoomWithin
  rw [EntryLimit.exceededBy_unbounded]
  rfl

/-! ## Sizes -/

theorem size_rotate_le (t : Tables K V) : t.rotate.2.size ≤ t.size := by
  have hempty : (∅ : Table K V).size = 0 := rfl
  simp only [rotate, size, sizes, Sizes.total, hempty]
  omega

variable [Std.TransOrd K] [Std.LawfulEqOrd K] {t t' : Tables K V} {k : K}

/-- The size that is reckoned with counts the keys, and `k` besides. -/
theorem Unique.sizeWith_eq_ncard (h : t.Unique) (k : K) :
    t.sizeWith k = (Insert.insert k {k' | t.generationOf? k' ≠ none}).ncard := by
  have hsize : t.size = {k' | t.generationOf? k' ≠ none}.ncard := h.total_sizes_eq_ncard
  rw [sizeWith, hsize]
  cases hg : t.generationOf? k with
  | none =>
      have hmem : k ∉ {k' | t.generationOf? k' ≠ none} := by simpa using hg
      rw [Set.ncard_insert_of_notMem hmem h.finite_keys]
      rfl
  | some g =>
      have hmem : k ∈ {k' | t.generationOf? k' ≠ none} := by simp [hg]
      rw [Set.insert_eq_of_mem hmem]
      rfl

/-- Tables that have the same keys, and `k` besides, are of the size reckoned for them. -/
theorem Unique.size_eq_sizeWith (h : t.Unique) (h' : t'.Unique) (hk : t'.generationOf? k ≠ none)
    (hne : ∀ k' ≠ k, t'.generationOf? k' = t.generationOf? k') : t'.size = t.sizeWith k := by
  have hkeys : {k' | t'.generationOf? k' ≠ none} =
      Insert.insert k {k' | t.generationOf? k' ≠ none} := by
    ext k'
    rw [Set.mem_insert_iff]
    by_cases hkk : k' = k
    · subst hkk
      simpa using hk
    · simp [hkk, hne k' hkk]
  have hsize : t'.size = {k' | t'.generationOf? k' ≠ none}.ncard := h'.total_sizes_eq_ncard
  rw [hsize, hkeys, h.sizeWith_eq_ncard]

/-- A lookup adds its key if no table has it. -/
theorem Unique.size_lookup (h : t.Unique) (k : K) (fresh : Entry V) :
    (t.lookup k fresh).2.size = t.sizeWith k := by
  refine h.size_eq_sizeWith (h.lookup k fresh) ?_ fun k' hk => ?_
  · rw [generationOf?_eq, slot_lookup_self]
    exact Option.some_ne_none _
  · rw [generationOf?_eq, generationOf?_eq, slot_lookup_of_ne fresh hk]

/-- So does a store. -/
theorem Unique.size_insert (h : t.Unique) (k : K) (e : Entry V) :
    (t.insert k e).2.size = t.sizeWith k := by
  refine h.size_eq_sizeWith (h.insert k e) ?_ fun k' hk => ?_
  · rw [generationOf?_eq, slot_insert_self]
    exact Option.some_ne_none _
  · rw [generationOf?_eq, generationOf?_eq, slot_insert_of_ne e hk]

theorem Unique.size_remove_le (h : t.Unique) (k : K) : (t.remove k).2.size ≤ t.size := by
  have hsize : (t.remove k).2.size = {k' | (t.remove k).2.generationOf? k' ≠ none}.ncard :=
    (h.remove k).total_sizes_eq_ncard
  have hsize₀ : t.size = {k' | t.generationOf? k' ≠ none}.ncard := h.total_sizes_eq_ncard
  rw [hsize, hsize₀]
  refine Set.ncard_le_ncard (fun k' hk' => ?_) h.finite_keys
  by_cases hkk : k' = k
  · subst hkk
    exact absurd (h.generationOf?_remove k') hk'
  · rw [Set.mem_ofPred_eq, generationOf?_eq, slot_remove_of_ne hkk] at hk'
    rw [Set.mem_ofPred_eq, generationOf?_eq]
    exact hk'

end Tables

/-! ## Visits -/

/-- The visit looks up a key that no generation has, and reserves a placeholder for it. -/
def Visit.reserves (v : Visit K V) : Bool :=
  match v.call with
  | .lookup k | .get k => (v.found.tables.generationOf? k).isNone
  | _ => false

/-- How many placeholders were reserved since the last insert, or since the start. -/
def reservedSinceInsert (h : List (Visit K V)) : Nat :=
  (h.rtakeWhile fun v => !v.call.isInsert).countP Visit.reserves

theorem reservedSinceInsert_concat (h : List (Visit K V)) (v : Visit K V) :
    reservedSinceInsert (h ++ [v]) =
      if v.call.isInsert then 0
      else reservedSinceInsert h + if v.reserves then 1 else 0 := by
  unfold reservedSinceInsert
  cases hv : v.call.isInsert with
  | true => rw [List.rtakeWhile_concat_neg _ _ _ (by simp [hv])]; rfl
  | false =>
      rw [List.rtakeWhile_concat_pos _ _ _ (by simp [hv]), List.countP_append,
        List.countP_singleton]
      rfl

namespace Visit

theorem limit_left (v : Visit K V) : v.left.limit = v.found.limit := by
  obtain ⟨call, c⟩ := v
  cases call <;> rfl

variable {v : Visit K V}

/-- Without a limit nothing is swept but on request. -/
theorem rotations_of_unbounded (hlimit : v.found.limit = .unbounded)
    (hc : v.call ≠ .evictStale) : v.rotations = 0 := by
  obtain ⟨call, found⟩ := v
  cases call with
  | insert k x =>
      have hrotations : (Visit.mk (.insert k x) found).rotations =
          (found.tables.makeRoom found.limit k).1.length := rfl
      rw [hrotations, hlimit, Tables.makeRoom_unbounded]
      rfl
  | evictStale => exact absurd rfl hc
  | _ => rfl

variable [Std.TransOrd K] [Std.LawfulEqOrd K]

/-- An insert leaves no more keys than the limit allows. -/
theorem exceededBy_left_of_isInsert (h : v.found.tables.Unique) (hi : v.call.isInsert = true) :
    v.found.limit.exceededBy v.left.tables.size = false := by
  obtain ⟨call, c⟩ := v
  cases call with
  | insert k x =>
      have hroom := h.makeRoom c.limit k
      have hsize : (Visit.mk (.insert k x) c).left.tables.size =
          (c.tables.makeRoom c.limit k).2.sizeWith k := hroom.size_insert k _
      rw [hsize]
      exact c.tables.exceededBy_makeRoom c.limit k
  | _ => cases hi

/-- Any other visit adds a key only by reserving a placeholder. -/
theorem size_left_le (h : v.found.tables.Unique) (hi : v.call.isInsert = false) :
    v.left.tables.size ≤ v.found.tables.size + if v.reserves then 1 else 0 := by
  obtain ⟨call, c⟩ := v
  cases call with
  | lookup k | get k => exact (h.size_lookup k _).le
  | insert k x => cases hi
  | remove k => exact h.size_remove_le k
  | clear => exact Nat.zero_le _
  | evictStale => exact c.tables.size_rotate_le
  | evictionRequired => exact Nat.le_refl _

end Visit

namespace Chronicle

variable {a c : LocalCache K V} {h : List (Visit K V)}

theorem limit_eq (hc : Chronicle a h c) : c.limit = a.limit := by
  induction hc with
  | nil => rfl
  | snoc v _ ih => rw [v.limit_left, ih]

section Unbounded

variable (hlimit : a.limit = .unbounded)

include hlimit

theorem evictionRequired_of_unbounded (hc : Chronicle a h c) : c.evictionRequired = false := by
  rw [LocalCache.evictionRequired, hc.limit_eq, hlimit, EntryLimit.exceededBy_unbounded]

theorem rotations_of_unbounded (hc : Chronicle a h c) {v : Visit K V} (hv : v ∈ h)
    (hi : v.call.isInsert = true) : v.rotations = 0 := by
  obtain ⟨earlier, later, -, hbefore⟩ := hc.of_mem hv
  refine Visit.rotations_of_unbounded (hbefore.limit_eq.trans hlimit) fun hcall => ?_
  rw [hcall] at hi
  cases hi

end Unbounded

variable [Std.TransOrd K] [Std.LawfulEqOrd K]

section Limited

variable {count : Nat} {positive : 0 < count} (hlimit : a.limit = .atMost count positive)

include hlimit

/-- Every insert leaves no more keys than the limit. -/
theorem size_left_le_of_isInsert (hc : Chronicle a h c) (ha : a.tables.Unique) {v : Visit K V}
    (hv : v ∈ h) (hi : v.call.isInsert = true) : v.left.tables.size ≤ count := by
  obtain ⟨earlier, later, -, hbefore⟩ := hc.of_mem hv
  have hfits := Visit.exceededBy_left_of_isInsert (hbefore.unique ha) hi
  rw [hbefore.limit_eq, hlimit, EntryLimit.exceededBy_atMost] at hfits
  exact Nat.le_of_not_lt (of_decide_eq_false hfits)

/-- **The size is bounded by the limit and the placeholders reserved since the last insert.** -/
theorem size_le (hc : Chronicle a h c) (ha : a.tables.Unique) (hsize : a.tables.size ≤ count) :
    c.tables.size ≤ count + reservedSinceInsert h := by
  induction hc with
  | nil => exact hsize
  | @snoc h v hv ih =>
      rw [reservedSinceInsert_concat]
      cases hi : v.call.isInsert with
      | true =>
          -- the insert has restored the bound, whatever it found
          have hfits := (hv.snoc v).size_left_le_of_isInsert hlimit ha (by simp) hi
          simp only [if_true]
          omega
      | false =>
          have hgrown := Visit.size_left_le (hv.unique ha) hi
          simp only [Bool.false_eq_true, if_false]
          omega

/-- Only a miss since the last insert can make an eviction necessary. -/
theorem reserved_of_evictionRequired (hc : Chronicle a h c) (ha : a.tables.Unique)
    (hsize : a.tables.size ≤ count) (hrequired : c.evictionRequired = true) :
    0 < reservedSinceInsert h := by
  have hbound := hc.size_le hlimit ha hsize
  rw [LocalCache.evictionRequired, hc.limit_eq, hlimit, EntryLimit.exceededBy_atMost] at hrequired
  have hover := of_decide_eq_true hrequired
  omega

end Limited

end Chronicle

/-! ## In use -/

/-- A configured size that is neither of the two for "any number" is the limit. -/
theorem EntryLimit.ofSize_eq_atMost {size : UInt64} (hzero : size ≠ 0)
    (hmax : size ≠ UInt64.ofNat (UInt64.size - 1)) :
    ∃ positive, EntryLimit.ofSize size = .atMost size.toNat positive := by
  have hnat : size.toNat ≠ 0 := fun h => hzero (UInt64.toNat_inj.mp h)
  refine ⟨Nat.pos_of_ne_zero hnat, ?_⟩
  rw [EntryLimit.ofSize, dif_neg]
  rintro (h | h)
  · exact hnat h
  · exact hmax h

theorem EntryLimit.ofSize_eq_unbounded {size : UInt64}
    (h : size = 0 ∨ size = UInt64.ofNat (UInt64.size - 1)) :
    EntryLimit.ofSize size = .unbounded := by
  rw [EntryLimit.ofSize, dif_pos]
  rcases h with rfl | h
  · exact .inl rfl
  · exact .inr h

namespace Usage

variable [Std.TransOrd K] [Std.LawfulEqOrd K]

/-- **A cache is over its limit by no more than the misses since the last insert.** With `size` the
configured limit: every reachable state holds at most `size` keys and one for each placeholder
reserved since the last insert; every insert leaves at most `size` keys; and the question whether
eviction is required is answered with yes only after such a miss, whether it has been asked already
or is asked now. With one of the two sizes that stand for "any number" no insert rotates, and the
answer is always no. -/
theorem size_within_limit {listeners : Nat} {size : UInt64} {s : Usage K V}
    (h : Reachable listeners (.ofSize size) s) :
    let ops : Operations (LocalCache K V) K V := LocalCache.operations listeners
    (size ≠ 0 → size ≠ UInt64.ofNat (UInt64.size - 1) →
      (ops.sizes s.cache).total ≤ size.toNat + reservedSinceInsert s.history ∧
      (∀ v ∈ s.history, v.call.isInsert = true → (ops.sizes v.left).total ≤ size.toNat) ∧
      (∀ earlier found later answer, s.history = earlier ++ ⟨.evictionRequired, found⟩ :: later →
        ⟨⟨.evictionRequired, found⟩, answer⟩ ∈ s.answered → answer = true →
          0 < reservedSinceInsert earlier) ∧
      ∃ s' required, Leads listeners s s' ∧
        s'.answered = s.answered ++ [⟨⟨.evictionRequired, s.cache⟩, required⟩] ∧
        (required = true → 0 < reservedSinceInsert s.history)) ∧
    ((size = 0 ∨ size = UInt64.ofNat (UInt64.size - 1)) →
      (∀ v ∈ s.history, v.call.isInsert = true → v.rotations = 0) ∧
      (∀ found answer, ⟨⟨.evictionRequired, found⟩, answer⟩ ∈ s.answered → answer = false) ∧
      ∃ s', Leads listeners s s' ∧
        s'.answered = s.answered ++ [⟨⟨.evictionRequired, s.cache⟩, false⟩]) := by
  intro ops
  have hc := h.sound.chronicle
  have hask := leads_alone listeners s .evictionRequired
  have hanswer : ∀ found answer, ⟨⟨.evictionRequired, found⟩, answer⟩ ∈ s.answered →
      ⟨.evictionRequired, found⟩ ∈ s.history ∧ answer = found.evictionRequired :=
    fun found answer ha => h.sound.answered _ ha
  refine ⟨fun hzero hmax => ?_, fun hany => ?_⟩
  · obtain ⟨positive, hlimit⟩ := EntryLimit.ofSize_eq_atMost hzero hmax
    have hempty : ({ limit := .ofSize size } : LocalCache K V).tables.size ≤ size.toNat :=
      Nat.zero_le _
    refine ⟨hc.size_le hlimit Tables.unique_empty hempty, ?_, ?_, _, _, hask, rfl, ?_⟩
    · exact fun v hv hi => hc.size_left_le_of_isInsert hlimit Tables.unique_empty hv hi
    · intro earlier found later answer hh ha hyes
      rw [hh] at hc
      rw [(hanswer found answer ha).2] at hyes
      exact hc.split_at.1.reserved_of_evictionRequired hlimit Tables.unique_empty hempty hyes
    · exact hc.reserved_of_evictionRequired hlimit Tables.unique_empty hempty
  · have hlimit := EntryLimit.ofSize_eq_unbounded hany
    refine ⟨fun v hv hi => hc.rotations_of_unbounded hlimit hv hi, fun found answer ha => ?_, ?_⟩
    · obtain ⟨hv, rfl⟩ := hanswer found answer ha
      obtain ⟨earlier, later, -, hbefore⟩ := hc.of_mem hv
      exact hbefore.evictionRequired_of_unbounded hlimit
    · have hno : Visit.answer ⟨.evictionRequired, s.cache⟩ = false :=
        hc.evictionRequired_of_unbounded hlimit
      rw [hno] at hask
      exact ⟨_, hask, rfl⟩

/-- Two misses after an insert push a cache for two keys over its limit, and no further. -/
theorem size_within_limit_two_misses :
    ∃ s : Usage Nat String, Reachable 1 (.ofSize 2) s ∧ s.cache.tables.size = 3 ∧
      reservedSinceInsert s.history = 2 ∧ s.cache.tables.size ≤ 2 + 2 := by
  have h : Reachable 1 (.ofSize 2) _ :=
    ((leads_alone 1 (start (.ofSize 2)) (.insert 7 "seven")).trans
      (leads_alone 1 _ (.lookup 8))).trans (leads_alone 1 _ (.get 9))
  obtain ⟨hbound, -⟩ := (size_within_limit h).1 (by decide) (by decide)
  exact ⟨_, h, by decide, by decide, hbound⟩

end Usage

end GenerationalCache
