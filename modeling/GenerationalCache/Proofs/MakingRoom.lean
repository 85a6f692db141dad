import GenerationalCache.Proofs.Capacity
import GenerationalCache.Proofs.Counting
import GenerationalCache.Proofs.Recency
import Mathlib.Order.Bounds.Basic

/-!
# What an insert does from end to end

An insert rotates as long as its key would be one too many. Each turn of this loop asks anew, of
tables that the turn before has shifted, and the key that is to come may itself be among what is
dropped. Still there is a plain account of it. Each rotation drops the oldest generation, whether
anything is in it or not, so after `r` turns just the keys of the `r` oldest generations are gone;
and the loop ends with the least `r` for which the others, and the key, are few enough.

All else follows from `r`: what is reported, and in which order; where every key is afterwards; and
what has been counted. The entry that the key had before is reported once, with the generation that
was dropped, or by itself.
-/

namespace GenerationalCache

/-! ## The oldest generations -/

namespace Generation

/-- The `n` oldest generations, the oldest first. -/
def oldest (n : Nat) : List Generation := all.reverse.take n

/-- They are those that `n` rotations drop. -/
theorem mem_oldest {g : Generation} {n : Nat} : g ∈ oldest n ↔ 2 < g.age + n := by
  match n with
  | 0 | 1 | 2 => cases g <;> simp [oldest, all, age]
  | n + 3 => cases g <;> simp [oldest, all, age, show 2 < 1 + (n + 3) by omega]

end Generation

variable {K V : Type} [Ord K]

namespace Tables

/-! ## The loop -/

/-- The loop that makes room for a key, however many turns it takes: it ends as soon as the key
fits, and until then it rotates. -/
inductive MakesRoom (limit : EntryLimit) (k : K) :
    Tables K V → List (Rotation V) → Tables K V → Prop where
  /-- The key fits. -/
  | fits {t : Tables K V} (fits : limit.exceededBy (t.sizeWith k) = false) :
      MakesRoom limit k t [] t
  /-- It does not fit. -/
  | rotates {t roomy : Tables K V} {rotations : List (Rotation V)}
      (short : limit.exceededBy (t.sizeWith k) = true)
      (rest : MakesRoom limit k t.rotate.2 rotations roomy) :
      MakesRoom limit k t (t.rotate.1 :: rotations) roomy

section Loop

variable {limit : EntryLimit} {k : K} {t roomy roomy' : Tables K V}
  {rotations rotations' : List (Rotation V)}

/-- The loop can only go in one way. -/
theorem MakesRoom.unique (h : MakesRoom limit k t rotations roomy)
    (h' : MakesRoom limit k t rotations' roomy') : rotations' = rotations ∧ roomy' = roomy := by
  induction h generalizing rotations' roomy' with
  | fits fits =>
      cases h' with
      | fits => exact ⟨rfl, rfl⟩
      | rotates short => rw [fits] at short; cases short
  | rotates short _ ih =>
      cases h' with
      | fits fits => rw [short] at fits; cases fits
      | rotates _ rest =>
          obtain ⟨rfl, rfl⟩ := ih rest
          exact ⟨rfl, rfl⟩

/-- If the key fits after so many rotations, no more turns are needed. -/
theorem makesRoom_makeRoomWithin {steps : Nat}
    (h : limit.exceededBy ((t.rotated steps).sizeWith k) = false) :
    MakesRoom limit k t (t.makeRoomWithin limit k steps).1 (t.makeRoomWithin limit k steps).2 := by
  induction steps generalizing t with
  | zero => exact .fits h
  | succ steps ih =>
      unfold makeRoomWithin
      split
      · next hshort => exact .rotates hshort (ih h)
      · next hfits => exact .fits (Bool.eq_false_iff.mpr hfits)

/-- **Three turns are enough**, so that bounding the loop by three leaves nothing out. -/
theorem makesRoom_makeRoom (t : Tables K V) (limit : EntryLimit) (k : K) :
    MakesRoom limit k t (t.makeRoom limit k).1 (t.makeRoom limit k).2 :=
  makesRoom_makeRoomWithin (limit.exceededBy_of_le_one (t.sizeWith_rotate_thrice k))

/-- The loop takes as few turns as it can. -/
theorem MakesRoom.isLeast (h : MakesRoom limit k t rotations roomy) :
    IsLeast {n | limit.exceededBy ((t.rotated n).sizeWith k) = false} rotations.length := by
  induction h with
  | fits fits => exact ⟨fits, fun n _ => Nat.zero_le n⟩
  | rotates short _ ih =>
      refine ⟨ih.1, fun n hn => ?_⟩
      cases n with
      | zero => cases short.symm.trans hn
      | succ n => exact Nat.succ_le_succ (ih.2 hn)

end Loop

/-! ## What rotations leave -/

/-- The keys that are left when the `n` oldest generations are dropped. -/
def kept (t : Tables K V) (n : Nat) : Set K :=
  {k | ∃ g, t.generationOf? k = some g ∧ g ∉ Generation.oldest n}

theorem kept_succ_subset (t : Tables K V) (n : Nat) : t.kept (n + 1) ⊆ t.kept n := by
  rintro k ⟨g, hg, hkept⟩
  rw [Generation.mem_oldest] at hkept
  refine ⟨g, hg, ?_⟩
  rw [Generation.mem_oldest]
  omega

/-- So many rotations drop the values of the oldest generations, one after the other. -/
theorem victims_rotated (t : Tables K V) {n : Nat} (hn : n ≤ 3) :
    (List.range n).map (fun i => (t.rotated i).rotate.1.victims) =
      (Generation.oldest n).map fun g => Entry.values (t.table g).values := by
  match n, hn with
  | 0, _ | 1, _ | 2, _ | 3, _ => rfl

variable [Std.TransOrd K]

/-- After `n` rotations these keys are there, and no others. -/
theorem setOf_rotated (t : Tables K V) (n : Nat) :
    {k | (t.rotated n).generationOf? k ≠ none} = t.kept n := by
  ext k
  rw [Set.mem_ofPred_eq, kept, Set.mem_ofPred_eq, generationOf?_eq, generationOf?_eq, slot_rotated,
    fst_aged]
  cases hslot : (t.slot k).map Prod.fst with
  | none => simp
  | some g => simp [Generation.mem_oldest, Generation.ofAge?_eq_none]

variable [Std.LawfulEqOrd K] {t : Tables K V}

/-- The size that is reckoned with after `n` rotations counts the keys that are left, and `k`
besides. -/
theorem Unique.sizeWith_rotated (h : t.Unique) (n : Nat) (k : K) :
    (t.rotated n).sizeWith k = (Insert.insert k (t.kept n)).ncard := by
  have hrotated : (t.rotated n).Unique := h.iterate_rotate n
  rw [hrotated.sizeWith_eq_ncard, setOf_rotated]

/-- It never grows from one rotation to the next, whether or not the key is dropped. -/
theorem Unique.antitone_sizeWith (h : t.Unique) (k : K) :
    Antitone fun n => (t.rotated n).sizeWith k := by
  refine antitone_nat_of_succ_le fun n => ?_
  have hrotated : (t.rotated n).Unique := h.iterate_rotate n
  have hfinite : (t.kept n).Finite := setOf_rotated t n ▸ hrotated.finite_keys
  rw [h.sizeWith_rotated, h.sizeWith_rotated]
  exact Set.ncard_le_ncard (Set.insert_subset_insert (t.kept_succ_subset n)) (hfinite.insert k)

end Tables

/-! ## The insert -/

namespace LocalCache

/-- What an insert of `x` under `k` does to a cache when it drops the `r` oldest generations. -/
structure InsertDrops (c : LocalCache K V) (k : K) (x : V) (r : Nat) : Prop where
  /-- The loop takes `r` turns and comes to an end. -/
  loop : Tables.MakesRoom c.limit k c.tables (c.insert k x).1.rotations (c.tables.rotated r)
  /-- It takes no other turns, and does not end elsewhere. -/
  onlyLoop : ∀ rotations roomy, Tables.MakesRoom c.limit k c.tables rotations roomy →
    rotations = (c.insert k x).1.rotations ∧ roomy = c.tables.rotated r
  /-- The insert rotates once in every turn. -/
  turns : (c.insert k x).1.rotations.length = r
  /-- With fewer generations dropped, what is left would be too much together with the key. -/
  least : IsLeast {n | c.limit.exceededBy (Insert.insert k (c.tables.kept n)).ncard = false} r
  /-- There are no more generations to drop. -/
  atMostThree : r ≤ 3
  /-- Without a limit there is always room. -/
  noneWithoutLimit : c.limit = .unbounded → r = 0
  /-- What the loop compares with the limit is the number of keys left, with the key. -/
  reckons : ∀ n, (c.tables.rotated n).sizeWith k = (Insert.insert k (c.tables.kept n)).ncard
  /-- It does not grow from one turn to the next. -/
  shrinks : Antitone fun n => (c.tables.rotated n).sizeWith k
  /-- A batch for each generation that is dropped with values in it, the oldest first, and then one
  for the value that is replaced. -/
  batches : (Visit.mk (.insert k x) c).batches =
    (Generation.oldest r).flatMap (fun g =>
      Batch.ofValues (Entry.values (c.tables.table g).values) .capacity) ++
    Batch.ofValues (c.insert k x).1.displaced.toList .replaced
  /-- A value is replaced if the key had it in a generation that was not dropped. -/
  replaces : ∀ old, (c.insert k x).1.displaced = some old ↔
    ∃ g e, c.tables.slot k = some (g, e) ∧ e.value = some old ∧ g ∉ Generation.oldest r
  /-- So the old value goes with its generation or by itself, and not in both ways. -/
  reportsOnce : ∀ g e old, c.tables.slot k = some (g, e) → e.value = some old →
    (g ∈ Generation.oldest r ∧ old ∈ Entry.values (c.tables.table g).values ∧
      (c.insert k x).1.displaced = none) ∨
    (g ∉ Generation.oldest r ∧ (c.insert k x).1.displaced = some old ∧
      ∀ g' ∈ Generation.oldest r, k ∉ c.tables.table g')
  /-- The key is in the primary generation, with the value. -/
  stores : (c.insert k x).2.tables.slot k = some (.primary, .resolved c.nextId x)
  /-- Every other key is where it was, `r` generations further down, or gone. -/
  ages : ∀ k' ≠ k, ∀ g' e, (c.insert k x).2.tables.slot k' = some (g', e) ↔
    ∃ g, c.tables.slot k' = some (g, e) ∧ g'.age = g.age + r
  /-- The rotations are counted with all the values that they drop, and so are the store and the
  value that it replaces. -/
  counters : (c.insert k x).2.counters =
    { c.counters with
      inserts := c.counters.inserts + 1
      replacements := c.counters.replacements + .ofNat (c.insert k x).1.displaced.toList.length
      rotations := c.counters.rotations + .ofNat r
      evictedByRotation := c.counters.evictedByRotation +
        .ofNat ((Generation.oldest r).flatMap fun g =>
          Entry.values (c.tables.table g).values).length }

section Insert

variable (c : LocalCache K V) (k : K) (x : V)

theorem rotations_insert : (c.insert k x).1.rotations = (c.tables.makeRoom c.limit k).1 := rfl

theorem displaced_eq_bind [Std.TransOrd K] : (c.insert k x).1.displaced =
    (Tables.aged (c.insert k x).1.rotations.length (c.tables.slot k)).bind fun s => s.2.value := by
  have hdisplaced : (c.insert k x).1.displaced =
      ((c.tables.makeRoom c.limit k).2.insert k (.resolved c.nextId x)).1.bind Entry.value := rfl
  rw [hdisplaced, Tables.insert_fst, Tables.find?_eq, Tables.slot_makeRoom, Option.bind_map]
  rfl

/-- The old value is replaced if its generation is not dropped. -/
theorem displaced_eq_some [Std.TransOrd K] {old : V} :
    (c.insert k x).1.displaced = some old ↔
      ∃ g e, c.tables.slot k = some (g, e) ∧ e.value = some old ∧
        g ∉ Generation.oldest (c.insert k x).1.rotations.length := by
  rw [displaced_eq_bind, Option.bind_eq_some_iff]
  simp only [Generation.mem_oldest, Nat.not_lt]
  constructor
  · rintro ⟨⟨g', e⟩, hslot, hold⟩
    obtain ⟨g, hg, hage⟩ := Tables.aged_eq_some.mp hslot
    have := g'.age_le
    exact ⟨g, e, hg, hold, by omega⟩
  · rintro ⟨g, e, hg, hold, hage⟩
    obtain ⟨g', hg'⟩ := Option.ne_none_iff_exists'.mp
      (mt Generation.ofAge?_eq_none.mp (Nat.not_lt.mpr hage))
    exact ⟨(g', e), Tables.aged_eq_some.mpr ⟨g, hg, Generation.ofAge?_eq_some.mp hg'⟩, hold⟩

/-- What the rotations drop is what is in the oldest generations. -/
theorem victims_insert (hturns : (c.insert k x).1.rotations.length ≤ 3) :
    (c.insert k x).1.rotations.map Rotation.victims =
      (Generation.oldest (c.insert k x).1.rotations.length).map fun g =>
        Entry.values (c.tables.table g).values := by
  have hrotations : (c.insert k x).1.rotations =
      (List.range (c.insert k x).1.rotations.length).map fun i => (c.tables.rotated i).rotate.1 :=
    Tables.makeRoomWithin_fst c.limit k 3 c.tables
  rw [← c.tables.victims_rotated hturns]
  conv_lhs => rw [hrotations, List.map_map]
  rfl

end Insert

variable [Std.TransOrd K] [Std.LawfulEqOrd K] {c : LocalCache K V}

/-- **An insert drops as few of the oldest generations as it can.** -/
theorem insertDrops (h : c.tables.Unique) (k : K) (x : V) :
    c.InsertDrops k x (c.insert k x).1.rotations.length := by
  have hloop : Tables.MakesRoom c.limit k c.tables (c.insert k x).1.rotations
      (c.tables.rotated (c.insert k x).1.rotations.length) := by
    have hroom := c.tables.makesRoom_makeRoom c.limit k
    rwa [show (c.tables.makeRoom c.limit k).2 = _ from Tables.makeRoomWithin_snd ..] at hroom
  have hleast := hloop.isLeast
  have hthree : (c.insert k x).1.rotations.length ≤ 3 :=
    hleast.2 (c.limit.exceededBy_of_le_one (c.tables.sizeWith_rotate_thrice k))
  have hvictims := victims_insert c k x hthree
  refine
    { loop := hloop
      onlyLoop := fun _ _ h' => hloop.unique h'
      turns := rfl
      least := by simpa only [h.sizeWith_rotated] using hleast
      atMostThree := hthree
      noneWithoutLimit := fun hlimit => ?_
      reckons := fun n => h.sizeWith_rotated n k
      shrinks := h.antitone_sizeWith k
      batches := ?_
      replaces := fun _ => displaced_eq_some c k x
      reportsOnce := fun g e old hslot hold => ?_
      stores := Tables.slot_insert_self _ _ _
      ages := fun k' hk g' e => ?_
      counters := ?_ }
  · rw [rotations_insert, hlimit, Tables.makeRoom_unbounded]
    rfl
  · -- one batch for each rotation, of what it dropped
    have hbatches : (Visit.mk (.insert k x) c).batches =
        ((c.insert k x).1.rotations.map Rotation.victims).flatMap
            (fun victims => Batch.ofValues victims .capacity) ++
          Batch.ofValues (c.insert k x).1.displaced.toList .replaced := by
      rw [List.flatMap_map]
      rfl
    rw [hbatches, hvictims, List.flatMap_map]
  · by_cases hg : g ∈ Generation.oldest (c.insert k x).1.rotations.length
    · refine .inl ⟨hg, Table.mem_values_of_getElem? (h.slot_eq_some.mp hslot) hold, ?_⟩
      -- the key has no other entry that could be replaced
      refine Option.eq_none_iff_forall_ne_some.mpr fun old' hreplaced => ?_
      obtain ⟨g', e', hslot', -, hkept⟩ := (displaced_eq_some c k x).mp hreplaced
      obtain ⟨rfl, -⟩ := Prod.mk.inj (Option.some.inj (hslot.symm.trans hslot'))
      exact hkept hg
    · refine .inr ⟨hg, (displaced_eq_some c k x).mpr ⟨g, e, hslot, hold, hg⟩, fun g' hg' hk => ?_⟩
      have hgen : c.tables.generationOf? k = some g := by
        rw [Tables.generationOf?_eq, hslot]
        rfl
      obtain rfl := Option.some.inj (hgen.symm.trans (h.generationOf?_eq_some.mpr hk))
      exact hg hg'
  · have hother : (c.insert k x).2.tables.slot k' = _ :=
      (Tables.slot_insert_of_ne _ hk).trans (Tables.slot_makeRoom ..)
    rw [hother, Tables.aged_eq_some]
    rfl
  · have hdropped : (c.insert k x).1.rotations.flatMap Rotation.victims =
        (Generation.oldest (c.insert k x).1.rotations.length).flatMap fun g =>
          Entry.values (c.tables.table g).values := by
      rw [List.flatMap_def, hvictims, ← List.flatMap_def]
    rw [counters_insert, hdropped]

end LocalCache

namespace Usage

variable [Std.TransOrd K] [Std.LawfulEqOrd K]

/-- **An insert drops as few of the oldest generations as it can, and accounts for all that goes.**
In every reachable state, whatever the limit. If the operation is not disturbed, it tells the
listeners of its batches and answers that all is well. -/
theorem insert_drops_least {listeners : Nat} {limit : EntryLimit} {s : Usage K V}
    (h : Reachable listeners limit s) (k : K) (x : V) :
    s.cache.limit = limit ∧ ∃ r, s.cache.InsertDrops k x r ∧ Leads listeners s { s with
      cache := (s.cache.insert k x).2
      history := s.history ++ [⟨.insert k x, s.cache⟩]
      told := s.told ++ (deliveries listeners (Visit.mk (.insert k x) s.cache).batches).map
        (⟨.insert k x, s.cache⟩, ·)
      answered := s.answered ++ [⟨⟨.insert k x, s.cache⟩, .ok ()⟩] } := by
  have hunique := h.unique.1
  exact ⟨h.sound.chronicle.limit_eq, _, LocalCache.insertDrops hunique k x,
    leads_alone listeners s (.insert k x)⟩

/-- A cache for two keys holds a value in its second generation and a placeholder in its first. One
rotation does not make room for a third key, and two do; the first drops nothing. -/
theorem insert_drops_least_two_turns : ∃ s : Usage Nat String,
    Reachable 1 (.atMost 2 (by decide)) s ∧ s.cache.InsertDrops 9 "nine" 2 ∧
      (Visit.mk (.insert 9 "nine") s.cache).batches = [⟨["seven"], .capacity⟩] := by
  have h : Reachable 1 (.atMost 2 (by decide)) _ :=
    ((leads_alone 1 (start _) (.insert 7 "seven")).trans (leads_alone 1 _ .evictStale)).trans
      (leads_alone 1 _ (.lookup 8))
  obtain ⟨-, r, hdrops, -⟩ := insert_drops_least h 9 "nine"
  obtain rfl : r = 2 := hdrops.turns.symm.trans (by decide)
  exact ⟨_, h, hdrops, by decide⟩

end Usage

end GenerationalCache
