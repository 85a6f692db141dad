import GenerationalCache.Proofs.Contents

/-!
# Keys removed in order

When the keys of a list are removed one after the other, the cache changes under the list: a key
that comes a second time is no longer there. What the removals amount to can still be said in terms
of the cache as it was. Of the different keys of the list, those count that were there, in the order
in which each comes first; each of them is gone, is counted, and is reported if there was a value.

This is said as a relation between the world before and the world after. The relation composes:
first the keys of one list, then those of another, is the keys of both. And it depends on a list
only through its different keys in their order, so keys that were removed before may be asked for
again without a difference.
-/

namespace GenerationalCache

variable {σ K V γ : Type}

/-! ## First occurrences -/

section Lists

variable [DecidableEq K]

theorem nodup_eraseDups : (ks : List K) → ks.eraseDups.Nodup
  | [] => .nil
  | k :: ks => by
    rw [List.eraseDups_cons]
    refine List.nodup_cons.mpr ⟨fun hk => ?_, nodup_eraseDups (ks.filter fun x => !x == k)⟩
    have := List.mem_filter.mp (List.mem_eraseDups.mp hk)
    simp at this
termination_by ks => ks.length
decreasing_by exact Nat.lt_succ_of_le (List.length_filter_le _ _)

/-- It does not matter whether repeats are dropped before or after other elements are. -/
theorem eraseDups_filter (p : K → Bool) : (ks : List K) →
    (ks.filter p).eraseDups = ks.eraseDups.filter p
  | [] => rfl
  | k :: ks => by
    have ih := eraseDups_filter p (ks.filter fun x => !x == k)
    rw [List.eraseDups_cons, List.filter_cons, List.filter_cons]
    cases hp : p k with
    | true =>
        simp only [if_true, List.eraseDups_cons, ← ih, List.filter_filter]
        simp only [Bool.and_comm]
    | false =>
        -- the other occurrences of the key are dropped as well
        have hother : (ks.filter fun x => !x == k).filter p = ks.filter p := by
          rw [List.filter_filter]
          refine List.filter_congr fun x _ => ?_
          by_cases hx : x = k
          · simp [hx, hp]
          · simp [hx]
        simp only [Bool.false_eq_true, if_false, ← ih, hother]
termination_by ks => ks.length
decreasing_by exact Nat.lt_succ_of_le (List.length_filter_le _ _)

/-- Elements that have come already make no difference. -/
theorem eraseDups_append_of_subset {ks ks' : List K} (h : ks' ⊆ ks) :
    (ks ++ ks').eraseDups = ks.eraseDups := by
  have hnone : ks'.removeAll ks = [] := by
    refine List.filter_eq_nil_iff.mpr fun k hk => ?_
    simpa using h hk
  rw [List.eraseDups_append, hnone, List.eraseDups_nil, List.append_nil]

/-- The first `n` elements and then the first `m` are as many as there are in the longer of the
two. -/
theorem eraseDups_take_append_take (ks : List K) (n m : Nat) :
    (ks.take n ++ ks.take m).eraseDups = (ks.take (max n m)).eraseDups := by
  rcases Nat.le_total m n with h | h
  · rw [Nat.max_eq_left h]
    exact eraseDups_append_of_subset (List.take_subset_take_left ks h)
  · rw [Nat.max_eq_right h]
    obtain ⟨more, hmore⟩ : ks.take n <+: ks.take m := List.take_prefix_take_left h
    have htwice : (ks.take n ++ ks.take n).eraseDups = (ks.take n).eraseDups :=
      eraseDups_append_of_subset (List.Subset.refl _)
    rw [← hmore, ← List.append_assoc, List.eraseDups_append, htwice, List.eraseDups_append]
    congr 2
    refine List.filter_congr fun k _ => ?_
    simp

/-! ## The keys that are there -/

/-- The different keys of a list under which there is something, in the order in which they first
come. -/
def present (held : K → Option γ) (ks : List K) : List K :=
  ks.eraseDups.filter fun k => (held k).isSome

/-- What is there without the keys of a list. -/
def without (held : K → Option γ) (ks : List K) (k : K) : Option γ :=
  if k ∈ ks then none else held k

variable (held : K → Option γ) (ks ks' : List K)

theorem present_singleton (k : K) :
    present held [k] = if (held k).isSome then [k] else [] := by
  rw [present, List.eraseDups_cons, List.filter_nil, List.eraseDups_nil, List.filter_singleton,
    Bool.cond_eq_ite]

theorem present_append :
    present held (ks ++ ks') = present held ks ++ present (without held ks) ks' := by
  rw [present, List.eraseDups_append, List.filter_append, List.removeAll, eraseDups_filter,
    List.filter_filter]
  congr 1
  refine List.filter_congr fun k _ => ?_
  by_cases hk : k ∈ ks
  · simp [without, hk]
  · simp [without, hk]

theorem without_append : without held (ks ++ ks') = without (without held ks) ks' := by
  funext k
  by_cases hk : k ∈ ks <;> by_cases hk' : k ∈ ks' <;> simp [without, hk, hk']

theorem present_without : present (without held ks) ks = [] := by
  refine List.filter_eq_nil_iff.mpr fun k hk => ?_
  simp [without, List.mem_eraseDups.mp hk]

/-- They are as many as different keys of the list are there. -/
theorem length_present :
    (present held ks).length = {k | k ∈ ks ∧ (held k).isSome}.ncard := by
  have hnodup : (present held ks).Nodup := (nodup_eraseDups ks).filter _
  have hset : {k | k ∈ ks ∧ (held k).isSome} = ((present held ks).toFinset : Set K) := by
    ext k
    simp [present]
  rw [hset, Set.ncard_coe_finset, List.toFinset_card_of_nodup hnodup]

end Lists

/-! ## Removals -/

/-- The provider is open, and the cache is registered with it once. -/
def World.Attached {p : Provider K} (w : World p Connection V) : Prop :=
  w.cache.handle = some p.handle ∧ w.adapters = 1

theorem Counters.invalidated_add (c : Counters) (m n : Nat) :
    (c.invalidated m).invalidated n = c.invalidated (m + n) := by
  simp [invalidated, UInt64.add_assoc]

theorem Counters.invalidated_zero (c : Counters) : c.invalidated 0 = c := by
  simp [invalidated]

/-- What a cache has under its keys, and the value in it, if there is one. -/
structure Holdings (p : Provider K) (σ V : Type) : Type 1 where
  /-- What may be under a key. -/
  Held : Type
  /-- What is under a key, if anything is. -/
  held : World p σ V → K → Option Held
  /-- The value in it. -/
  value? : Held → Option V
  /-- What the cache has counted. -/
  counters : σ → Counters

/-- Removing a key that is not there changes nothing. -/
theorem LocalCache.remove_of_slot_eq_none [Ord K] (c : LocalCache K V) {k : K}
    (h : c.tables.slot k = none) : (c.remove k).2 = c := by
  have htables : c.tables.remove k = (none, c.tables) := by
    simp only [Tables.slot, Option.or_eq_none_iff, Option.map_eq_none_iff] at h
    obtain ⟨h₁, h₂, h₃⟩ := h
    simp [Tables.remove, Tables.takeOlder, h₁, h₂, h₃]
  rw [remove, htables]
  rfl

namespace Holdings

variable {p : Provider K} {serializer : Serializer V} {listeners : Nat} [DecidableEq K]

/-- The reports of removals: one for each different key that has a value, in the order in which the
keys first come. -/
def batches (h : Holdings p σ V) (w : World p σ V) (ks : List K) : List (Batch V) :=
  (ks.eraseDups.filterMap fun k => (h.held w k).bind h.value?).map (⟨[·], .invalidated⟩)

/-- From one world to the other the keys of a list were removed, and that was counted and told. -/
structure Removed (h : Holdings p σ V) (listeners : Nat) (ks : List K) (w w' : World p σ V) :
    Prop where
  /-- The keys of the list are gone, and the others as they were. -/
  held : h.held w' = without (h.held w) ks
  /-- As many removals were counted as different keys of the list were there. -/
  counters : h.counters w'.cache =
    (h.counters w.cache).invalidated (present (h.held w) ks).length
  /-- Every listener was told of the values, one batch for each. -/
  told : w'.told = w.told ++ deliveries listeners (h.batches w ks)

namespace Removed

variable {h : Holdings p σ V} {ks ks' : List K} {w w' w'' : World p σ V}

theorem refl (h : Holdings p σ V) (listeners : Nat) (w : World p σ V) :
    h.Removed listeners [] w w := by
  refine ⟨?_, (Counters.invalidated_zero _).symm, (List.append_nil _).symm⟩
  funext k
  simp [without]

/-- First the keys of one list and then those of another are removed. -/
theorem trans (h₁ : h.Removed listeners ks w w') (h₂ : h.Removed listeners ks' w' w'') :
    h.Removed listeners (ks ++ ks') w w'' := by
  have hbatches : h.batches w (ks ++ ks') = h.batches w ks ++ h.batches w' ks' := by
    rw [batches, batches, batches, List.eraseDups_append, List.filterMap_append, List.map_append,
      List.removeAll, eraseDups_filter, List.filterMap_filter, h₁.held]
    congr 2
    -- what the first list has is not there any more for the second
    refine List.filterMap_congr fun k _ => ?_
    by_cases hk : k ∈ ks <;> simp [without, hk]
  refine ⟨?_, ?_, ?_⟩
  · rw [h₂.held, h₁.held, without_append]
  · rw [h₂.counters, h₁.counters, h₁.held, Counters.invalidated_add, present_append,
      List.length_append]
  · rw [h₂.told, h₁.told, List.append_assoc, hbatches]
    simp only [deliveries, List.flatMap_append]

/-- Only the different keys matter, in the order in which they first come. -/
theorem congr (hr : h.Removed listeners ks w w') (heq : ks.eraseDups = ks'.eraseDups) :
    h.Removed listeners ks' w w' := by
  have hmem : ∀ k, k ∈ ks ↔ k ∈ ks' := by
    intro k
    rw [← List.mem_eraseDups, heq, List.mem_eraseDups]
  have hpresent : present (h.held w) ks = present (h.held w) ks' := by rw [present, heq, present]
  refine ⟨?_, ?_, ?_⟩
  · rw [hr.held]
    funext k
    simp only [without, hmem]
  · rw [hr.counters, hpresent]
  · rw [hr.told, batches, heq, batches]

end Removed

/-! ## Caches whose removals can be accounted for -/

/-- A removal of a single key removes it, tells whether it was there, and if it was not changes
nothing. -/
structure Accounts (h : Holdings p σ V) (serializer : Serializer V) (listeners : Nat)
    (ops : Operations σ K V) where
  /-- The worlds in which that is so. -/
  Sound : World p σ V → Prop
  /-- The removal of one key, and what comes of it. -/
  remove : ∀ {w}, Sound w → ∀ k, ∃ w', (ops.remove k).run (World.act serializer listeners) w =
      (.ok (h.held w k).isSome, w') ∧ Sound w' ∧ h.Removed listeners [k] w w' ∧
    (h.held w k = none → w'.cache = w.cache)

/-- So do removals of the keys of a list. -/
theorem Accounts.run_removeCounting {h : Holdings p σ V} {ops : Operations σ K V}
    (a : h.Accounts serializer listeners ops) {w : World p σ V} (hw : a.Sound w) (ks : List K)
    (count : Nat) :
    ∃ w', (ops.removeCounting ks count).run (World.act serializer listeners) w =
        (.ok (count + (present (h.held w) ks).length), w') ∧ a.Sound w' ∧
      h.Removed listeners ks w w' ∧ ((∀ k ∈ ks, h.held w k = none) → w'.cache = w.cache) := by
  induction ks generalizing w count with
  | nil => exact ⟨w, rfl, hw, .refl h listeners w, fun _ => rfl⟩
  | cons k ks ih =>
      obtain ⟨w₁, hremove, hw₁, hone, hsame⟩ := a.remove hw k
      obtain ⟨w₂, hrest, hw₂, hmore, hsame₂⟩ :=
        ih hw₁ (if (h.held w k).isSome then count + 1 else count)
      refine ⟨w₂, ?_, hw₂, hone.trans hmore, fun hnone => ?_⟩
      · refine (Program.run_bind ..).trans ?_
        rw [hremove]
        refine hrest.trans ?_
        have hcons : present (h.held w) (k :: ks) = _ := present_append (h.held w) [k] ks
        rw [hone.held, hcons, List.length_append]
        cases hk : h.held w k <;> simp [present_singleton, hk, Nat.add_assoc]
      · obtain ⟨hk, hks⟩ := List.forall_mem_cons.mp hnone
        have hstill : ∀ x ∈ ks, h.held w₁ x = none := by
          intro x hx
          simp [hone.held, without, hks x hx]
        rw [hsame₂ hstill, hsame hk]

/-- The report of a single removal. -/
theorem batches_singleton (h : Holdings p σ V) (w : World p σ V) (k : K) :
    h.batches w [k] = Batch.ofValues ((h.held w k).bind h.value?).toList .invalidated := by
  rw [batches, List.eraseDups_cons, List.filter_nil, List.eraseDups_nil]
  cases hv : (h.held w k).bind h.value? <;> simp [hv, Batch.ofValues]

theorem Removed.single {h : Holdings p σ V} {w w' : World p σ V} {k : K}
    (gone : h.held w' k = none) (others : ∀ k' ≠ k, h.held w' k' = h.held w k')
    (counters : h.counters w'.cache = if (h.held w k).isSome
      then (h.counters w.cache).invalidated 1 else h.counters w.cache)
    (told : w'.told = w.told ++
      deliveries listeners (Batch.ofValues ((h.held w k).bind h.value?).toList .invalidated)) :
    h.Removed listeners [k] w w' := by
  refine ⟨?_, ?_, ?_⟩
  · funext k'
    by_cases hk : k' = k
    · simpa [without, hk] using gone
    · simpa [without, hk] using others k' hk
  · rw [counters, present_singleton]
    cases h.held w k with
    | none => exact (Counters.invalidated_zero _).symm
    | some _ => rfl
  · rw [told, batches_singleton]

/-- A cache that leaves its entries to the provider has bytes under its keys, and a value where they
can be read. -/
def far (p : Provider K) (serializer : Serializer V) : Holdings p Connection V where
  Held := Bytes
  held w k := p.held w.store k
  value? bytes := (serializer.decode (some bytes)).1
  counters c := c.counters

/-- It accounts for its removals once the provider is open. -/
def farAccounts (p : Provider K) (serializer : Serializer V) (listeners : Nat) :
    (far p serializer).Accounts serializer listeners
      (Connection.operations serializer listeners) where
  Sound w := w.Attached
  remove {w} hw k := by
    have hremove : ((Connection.operations serializer listeners).program (.remove k)).run
        (World.act serializer listeners) w = _ :=
      World.run_program (World.perform_remove (.inr hw) k)
    refine ⟨_, hremove, ⟨rfl, rfl⟩, .single ?_ ?_ rfl ?_, fun hnone => ?_⟩
    · exact p.held_remove w.store k
    · exact fun k' hk => p.held_remove_of_ne w.store hk
    · cases hheld : p.held w.store k <;> simp [far, hheld, Serializer.decode]
    · obtain ⟨⟨handle, counters, nextId⟩, store, adapters, told⟩ := w
      obtain ⟨rfl, rfl⟩ := hw
      have hnone' : p.held store k = none := hnone
      simp [World.opened, hnone']

variable [Ord K]

/-- A cache that keeps its own entries has them in its generations. -/
def near (p : Provider K) : Holdings p (LocalCache K V) V where
  Held := Generation × Entry V
  held w k := w.cache.tables.slot k
  value? held := held.2.value
  counters c := c.counters

/-- It accounts for its removals as long as no key is in two tables. -/
def nearAccounts [Std.TransOrd K] [Std.LawfulEqOrd K] (p : Provider K) (serializer : Serializer V)
    (listeners : Nat) :
    (near p).Accounts serializer listeners (LocalCache.operations listeners) where
  Sound w := w.cache.tables.Unique
  remove {w} hw k := by
    have hremove : ((LocalCache.operations listeners).program (.remove k)).run
        (World.act serializer listeners) w = _ :=
      World.run_program (World.perform_local (.remove k) w)
    have hremoved : (w.cache.remove k).1 = (w.cache.tables.slot k).map Prod.snd :=
      (Tables.remove_fst _ k).trans (Tables.find?_eq _ k)
    have hanswer : (Visit.mk (.remove k) w.cache).answer =
        .ok (w.cache.tables.slot k).isSome := by
      rw [Visit.answer, hremoved, Option.isSome_map]
    rw [hanswer] at hremove
    have hcounters : (w.cache.remove k).2.counters = if (w.cache.remove k).1.isSome
        then w.cache.counters.invalidated 1 else w.cache.counters := rfl
    refine ⟨_, hremove, hw.remove k, .single ?_ ?_ ?_ ?_, fun hnone => ?_⟩
    · exact Tables.slot_remove_self hw k
    · exact fun k' hk => Tables.slot_remove_of_ne hk
    · rw [hremoved, Option.isSome_map] at hcounters
      exact hcounters
    · have hbatches : (Visit.mk (.remove k) w.cache).batches =
          Batch.ofValues ((w.cache.remove k).1.bind Entry.value).toList .invalidated := rfl
      rw [hbatches, hremoved, Option.bind_map]
      rfl
    · exact w.cache.remove_of_slot_eq_none hnone

end Holdings

end GenerationalCache
