import GenerationalCache.Proofs.Usage

/-!
# Older generations were touched longer ago

The generations are there to order the keys by recency, roughly: keys of one generation are not
told apart, but no key of an older generation was touched after one of a younger generation. It is
enough to compare ages. The age of a key is the number of rotations after its last touch, so of two
keys the one that was touched later has seen fewer of them, or as many.

What a rotation evicts is oldest at that moment, and what survives it is younger. This stays true of
all the rotations of one insert taken together: a key that the insert has not dropped in the end was
younger from the start than any key that one of its rotations dropped.
-/

namespace GenerationalCache

variable {K V : Type} [Ord K]

/-! ## Rotations, one by one -/

namespace Tables

/-- The tables after `n` rotations. -/
def rotated (n : Nat) (t : Tables K V) : Tables K V := (fun t => t.rotate.2)^[n] t

/-- The next rotation takes the key out. -/
structure Evicts (t : Tables K V) (k : K) : Prop where
  /-- It is there now. -/
  held : t.generationOf? k ≠ none
  /-- Afterwards it is not. -/
  dropped : t.rotate.2.generationOf? k = none

/-- Making room rotates again and again, and keeps account of every rotation. -/
theorem makeRoomWithin_fst (limit : EntryLimit) (k : K) (steps : Nat) (t : Tables K V) :
    (t.makeRoomWithin limit k steps).1 =
      (List.range (t.makeRoomWithin limit k steps).1.length).map
        fun i => (t.rotated i).rotate.1 := by
  induction steps generalizing t with
  | zero => rfl
  | succ steps ih =>
      unfold makeRoomWithin
      split
      · rw [List.length_cons, List.range_succ_eq_map, List.map_cons, List.map_map]
        exact congrArg _ (ih t.rotate.2)
      · rfl

theorem rotated_succ (n : Nat) (t : Tables K V) : t.rotated (n + 1) = (t.rotated n).rotate.2 :=
  Function.iterate_succ_apply' _ n t

variable [Std.TransOrd K] {t : Tables K V} {k : K}

theorem slot_rotated (n : Nat) (t : Tables K V) (k : K) :
    (t.rotated n).slot k = aged n (t.slot k) := slot_iterate_rotate n t k

/-- A key that is there after `n` rotations was younger by `n` before. -/
theorem age_le_of_rotated {n : Nat} (h : (t.rotated n).generationOf? k ≠ none) :
    ∃ g e, t.slot k = some (g, e) ∧ g.age + n ≤ 2 := by
  rw [generationOf?_eq, slot_rotated] at h
  obtain ⟨g', hg'⟩ := Option.ne_none_iff_exists'.mp h
  obtain ⟨⟨g', e⟩, hs, -⟩ := Option.map_eq_some_iff.mp hg'
  obtain ⟨g, hg, hage⟩ := aged_eq_some.mp hs
  have := g'.age_le
  exact ⟨g, e, hg, by omega⟩

/-- A key that the rotation after `n` others evicts is as old as can be by then. -/
theorem Evicts.age_eq {n : Nat} (h : (t.rotated n).Evicts k) :
    ∃ g e, t.slot k = some (g, e) ∧ g.age + n = 2 := by
  obtain ⟨g, e, hg, hle⟩ := age_le_of_rotated h.held
  refine ⟨g, e, hg, ?_⟩
  have hdropped := h.dropped
  rw [generationOf?_eq, slot_rotate, slot_rotated, aged_aged, hg, fst_aged] at hdropped
  have hgone : 2 < g.age + (n + 1) := Generation.ofAge?_eq_none.mp hdropped
  omega

end Tables

/-- The tables that a visit has after `i` of its rotations. -/
def Visit.tablesAt (v : Visit K V) (i : Nat) : Tables K V := v.found.tables.rotated i

/-- The rotations of a visit are those of the tables that it has in between. -/
theorem Visit.rotationsMade_eq (v : Visit K V) :
    v.rotationsMade = (List.range v.rotations).map fun i => (v.tablesAt i).rotate.1 := by
  obtain ⟨call, c⟩ := v
  cases call with
  | insert k x => exact Tables.makeRoomWithin_fst c.limit k 3 c.tables
  | _ => rfl

/-! ## Touches -/

/-- The key was last touched by the visit at place `n`. -/
def LastTouch (h : List (Visit K V)) (k : K) (n : Nat) : Prop :=
  ∃ earlier v later, h = earlier ++ v :: later ∧ earlier.length = n ∧ v.call.Touches k ∧
    ∀ w ∈ later, ¬ w.call.Touches k

/-- Both keys were touched, and the last touch of `a` came before the last touch of `b`. -/
def TouchedBefore (h : List (Visit K V)) (a b : K) : Prop :=
  ∃ m n, LastTouch h a m ∧ LastTouch h b n ∧ m < n

namespace Chronicle

variable [Std.TransOrd K] [Std.LawfulEqOrd K] {start c : LocalCache K V} {h : List (Visit K V)}

/-- Behind every key that is there is its last touch, as many rotations ago as its generation
says. -/
theorem exists_last_touch (hc : Chronicle start h c) (hu : start.tables.Unique) {k : K}
    (hk : start.tables.slot k = none) {g : Generation} {e : Entry V}
    (hs : c.tables.slot k = some (g, e)) :
    ∃ earlier v later, h = earlier ++ v :: later ∧ v.call.Touches k ∧
      (∀ w ∈ later, ¬ w.call.Touches k) ∧ rotationsIn later = g.age := by
  induction hc generalizing g e with
  | nil =>
      rw [hk] at hs
      cases hs
  | @snoc h v hv ih =>
      cases Visit.effect (hv.unique hu) k with
      | lookedUp hl hs' =>
          rw [hs] at hs'
          cases hs'
          exact ⟨h, v, [], rfl, .inl hl, by simp, rfl⟩
      | stored x hi hs' =>
          rw [hs] at hs'
          cases hs'
          exact ⟨h, v, [], rfl, .inr (by rw [hi]; rfl), by simp, rfl⟩
      | discarded hd hs' =>
          rw [hs] at hs'
          cases hs'
      | quiet ht hd hs' =>
          -- the rotations since the touch grow by those of the visit, and so does the age
          rw [hs] at hs'
          obtain ⟨g', hfound, hage⟩ := Tables.aged_eq_some.mp hs'.symm
          obtain ⟨earlier, w, later, rfl, hw, huntouched, hrot⟩ := ih hfound
          refine ⟨earlier, w, later ++ [v], by simp, hw, ?_, ?_⟩
          · exact List.forall_mem_append.mpr ⟨huntouched, List.forall_mem_singleton.mpr ht⟩
          · rw [rotationsIn_append, rotationsIn_singleton, hrot, hage]

/-- **The older of two keys was touched first.** -/
theorem touchedBefore (hc : Chronicle start h c) (hu : start.tables.Unique)
    (hempty : ∀ k, start.tables.slot k = none) {a b : K} {ga gb : Generation} {ea eb : Entry V}
    (ha : c.tables.slot a = some (ga, ea)) (hb : c.tables.slot b = some (gb, eb))
    (hage : gb.age < ga.age) : TouchedBefore h a b := by
  obtain ⟨earlier, v, later, hh, hv, huntouched, hrot⟩ := hc.exists_last_touch hu (hempty a) ha
  obtain ⟨earlier', v', later', hh', hv', huntouched', hrot'⟩ :=
    hc.exists_last_touch hu (hempty b) hb
  refine ⟨earlier.length, earlier'.length, ⟨earlier, v, later, hh, rfl, hv, huntouched⟩,
    ⟨earlier', v', later', hh', rfl, hv', huntouched'⟩, ?_⟩
  by_contra hle
  -- the rotations after the touch of `a` would be among those after the touch of `b`
  have hsuffix : v :: later <:+ v' :: later' := by
    refine List.suffix_of_suffix_length_le ⟨earlier, hh.symm⟩ ⟨earlier', hh'.symm⟩ ?_
    have hlength := congrArg List.length (hh.symm.trans hh')
    rw [List.length_append, List.length_append] at hlength
    omega
  obtain ⟨between, hbetween⟩ : later <:+ later' := by
    rcases List.suffix_cons_iff.mp hsuffix with heq | hin
    · obtain ⟨-, rfl⟩ := List.cons.inj heq
      exact List.suffix_refl _
    · exact (List.suffix_cons v later).trans hin
  rw [← hbetween, rotationsIn_append] at hrot'
  omega

end Chronicle

namespace Usage

variable [Std.TransOrd K] [Std.LawfulEqOrd K]

/-- **The generations never invert recency.** In every reachable state a key of an older generation
was last touched before a key of a younger one. Every rotation of every visit evicts only keys that
were last touched before each key that survives it, counting the touches before the visit. And what
the rotations of an insert evict was last touched before every other key that the insert leaves. -/
theorem recency_never_inverted {listeners : Nat} {limit : EntryLimit} {s : Usage K V}
    (h : Reachable listeners limit s) :
    let ops : Operations (LocalCache K V) K V := LocalCache.operations listeners
    (∀ a b ga gb, ops.generationOf? s.cache a = some ga → ops.generationOf? s.cache b = some gb →
      gb.age < ga.age → TouchedBefore s.history a b) ∧
    ∀ earlier v later, s.history = earlier ++ v :: later →
      v.rotationsMade = (List.range v.rotations).map (fun i => (v.tablesAt i).rotate.1) ∧
      (∀ i < v.rotations, ∀ a b, (v.tablesAt i).Evicts a →
        (v.tablesAt i).rotate.2.generationOf? b ≠ none → TouchedBefore earlier a b) ∧
      ∀ k x, v.call = .insert k x → ∀ i < v.rotations, ∀ a b, (v.tablesAt i).Evicts a → b ≠ k →
        ops.generationOf? v.left b ≠ none → TouchedBefore earlier a b := by
  intro ops
  have hc := h.sound.chronicle
  refine ⟨fun a b ga gb ha hb hage => ?_, fun earlier v later hh => ?_⟩
  · have hgen : ∀ k, ops.generationOf? s.cache k = (s.cache.tables.slot k).map Prod.fst :=
      fun k => s.cache.tables.generationOf?_eq k
    rw [hgen] at ha hb
    obtain ⟨⟨ga, ea⟩, hsa, rfl⟩ := Option.map_eq_some_iff.mp ha
    obtain ⟨⟨gb, eb⟩, hsb, rfl⟩ := Option.map_eq_some_iff.mp hb
    exact hc.touchedBefore Tables.unique_empty Tables.slot_empty hsa hsb hage
  · rw [hh] at hc
    have hbefore := hc.split_at.1
    have hu := hbefore.unique Tables.unique_empty
    -- what is left after one more rotation than the evicted key has seen was younger at the start
    have hyounger : ∀ {i n : Nat} {a b : K}, (v.tablesAt i).Evicts a → i < n →
        (v.found.tables.rotated n).generationOf? b ≠ none → TouchedBefore earlier a b := by
      intro i n a b ha hin hb
      obtain ⟨ga, ea, hsa, hga⟩ := ha.age_eq
      obtain ⟨gb, eb, hsb, hgb⟩ := Tables.age_le_of_rotated hb
      exact hbefore.touchedBefore Tables.unique_empty Tables.slot_empty hsa hsb (by omega)
    refine ⟨v.rotationsMade_eq, fun i _ a b ha hb => ?_, fun k x hi i hlt a b ha hne hb => ?_⟩
    · rw [Visit.tablesAt, ← Tables.rotated_succ] at hb
      exact hyounger ha (Nat.lt_succ_self i) hb
    · refine hyounger ha hlt ?_
      have hquiet : v.left.tables.slot b = Tables.aged v.rotations (v.found.tables.slot b) := by
        refine Visit.slot_left_of_quiet hu ?_ ?_
        · rw [hi]
          simpa [Call.Touches, Call.LooksUp, Call.Stores] using Ne.symm hne
        · rw [hi]
          exact id
      have hleft : ops.generationOf? v.left b = (v.left.tables.slot b).map Prod.fst :=
        v.left.tables.generationOf?_eq b
      rw [hleft, hquiet, ← Tables.slot_rotated, ← Tables.generationOf?_eq] at hb
      exact hb

/-- An insert into a full cache rotates twice and drops the key that was touched first. -/
theorem recency_never_inverted_two_rotations :
    ∃ (s : Usage Nat String) (earlier : List (Visit Nat String)) (v : Visit Nat String),
      Reachable 1 (.ofSize 2) s ∧ s.history = earlier ++ [v] ∧ v.call = .insert 9 "nine" ∧
      v.rotations = 2 ∧ v.left.tables.generationOf? 8 = some .tertiary ∧
      TouchedBefore earlier 7 8 := by
  have h : Reachable 1 (.ofSize 2) _ :=
    ((leads_alone 1 (start (.ofSize 2)) (.insert 7 "seven")).trans
      (leads_alone 1 _ .evictStale)).trans
      ((leads_alone 1 _ (.lookup 8)).trans (leads_alone 1 _ (.insert 9 "nine")))
  obtain ⟨-, hall⟩ := recency_never_inverted h
  obtain ⟨-, -, hinsert⟩ := hall _ _ [] rfl
  refine ⟨_, _, _, h, rfl, rfl, by decide, by decide, ?_⟩
  exact hinsert 9 "nine" rfl 1 (by decide) 7 8 ⟨by decide, by decide⟩ (by decide) (by decide)

end Usage

end GenerationalCache
