import GenerationalCache.Proofs.Usage

/-!
# The generation of a key is its age

The three tables are swapped at every rotation, and lookups and inserts carry entries from one into
another. Seen from outside, all of that is one number for each key: how many rotations there were
since it was last touched. A touch makes it zero, whatever it was before, a rotation adds one for
every key at once, a removal ends it, and nothing else has any part in it.

The proof follows a single slot through the visits after the last touch. None of them touches the
key, so each of them either empties the slot or moves it down by the rotations that it performs, and
an empty slot stays empty.
-/

namespace GenerationalCache

variable {K V : Type} [Ord K] [Std.TransOrd K] [Std.LawfulEqOrd K]

namespace Chronicle

variable {a c : LocalCache K V} {h : List (Visit K V)} {k : K}

/-- A key that is gone stays gone until it is touched. -/
theorem slot_untouched (hc : Chronicle a h c) (ha : a.tables.Unique)
    (untouched : ∀ v ∈ h, ¬ v.call.Touches k) (hk : a.tables.slot k = none) :
    c.tables.slot k = none := by
  induction hc with
  | nil => exact hk
  | @snoc h v hv ih =>
      have hfound : v.found.tables.slot k = none :=
        ih fun w hw => untouched w (List.mem_append_left _ hw)
      have hu := hv.unique ha
      by_cases hd : v.call.Discards k
      · exact Visit.slot_left_of_discards hu hd
      · rw [Visit.slot_left_of_quiet hu (untouched v (by simp)) hd, hfound, Tables.aged_none]

/-- A key that is neither touched nor removed grows older by the rotations. -/
theorem slot_quiet (hc : Chronicle a h c) (ha : a.tables.Unique)
    (untouched : ∀ v ∈ h, ¬ v.call.Touches k) (kept : ∀ v ∈ h, ¬ v.call.Discards k) :
    c.tables.slot k = Tables.aged (rotationsIn h) (a.tables.slot k) := by
  induction hc with
  | nil => exact (Tables.aged_zero _).symm
  | @snoc h v hv ih =>
      have hfound : v.found.tables.slot k = Tables.aged (rotationsIn h) (a.tables.slot k) :=
        ih (fun w hw => untouched w (List.mem_append_left _ hw))
          fun w hw => kept w (List.mem_append_left _ hw)
      rw [Visit.slot_left_of_quiet (hv.unique ha) (untouched v (by simp)) (kept v (by simp)),
        hfound, Tables.aged_aged, rotationsIn_append, rotationsIn_singleton]

/-- A key that is removed is gone until it is touched. -/
theorem slot_discarded (hc : Chronicle a h c) (ha : a.tables.Unique)
    (untouched : ∀ v ∈ h, ¬ v.call.Touches k) (hd : ∃ v ∈ h, v.call.Discards k) :
    c.tables.slot k = none := by
  obtain ⟨v, hv, hvk⟩ := hd
  obtain ⟨earlier, later, rfl⟩ := List.append_of_mem hv
  obtain ⟨hbefore, hafter⟩ := hc.split_at
  have hfound := hbefore.unique ha
  have hgone := Visit.slot_left_of_discards hfound hvk
  refine hafter.slot_untouched (Visit.unique_left hfound) (fun w hw => ?_) hgone
  exact untouched w (List.mem_append_right _ (List.mem_cons_of_mem _ hw))

end Chronicle

namespace Usage

/-- **The generation of a key is its age in rotations.** A key that was never touched has none. With
`v` the visit that last touched it, it has none either when it was removed since; otherwise the
rotations of the visits after `v` are its age, and its generation is the one of that age, none from
the third rotation on. And a visit that neither touches nor removes the key moves it by the
rotations that the visit performs, and in no other way. -/
theorem generation_is_age {listeners : Nat} {limit : EntryLimit} {s : Usage K V}
    (h : Reachable listeners limit s) (k : K) :
    let ops : Operations (LocalCache K V) K V := LocalCache.operations listeners
    ((∀ v ∈ s.history, ¬ v.call.Touches k) → ops.generationOf? s.cache k = none) ∧
    (∀ earlier v later, s.history = earlier ++ v :: later → v.call.Touches k →
      (∀ w ∈ later, ¬ w.call.Touches k) →
      ((∃ w ∈ later, w.call.Discards k) → ops.generationOf? s.cache k = none) ∧
      ((∀ w ∈ later, ¬ w.call.Discards k) →
        ops.generationOf? s.cache k = Generation.ofAge? (rotationsIn later))) ∧
    ∀ w ∈ s.history, ¬ w.call.Touches k → ¬ w.call.Discards k →
      ops.generationOf? w.left k =
        (ops.generationOf? w.found k).bind fun g => Generation.ofAge? (g.age + w.rotations) := by
  intro ops
  have hgen : ∀ c : LocalCache K V, ops.generationOf? c k = (c.tables.slot k).map Prod.fst :=
    fun c => c.tables.generationOf?_eq k
  have hc := h.sound.chronicle
  refine ⟨fun untouched => ?_, fun earlier v later hs ht untouched => ?_, fun w hw ht hd => ?_⟩
  · have hnew := hc.slot_untouched Tables.unique_empty untouched (Tables.slot_empty k)
    rw [hgen, hnew, Option.map_none]
  · rw [hs] at hc
    obtain ⟨hbefore, hafter⟩ := hc.split_at
    have hfound := hbefore.unique Tables.unique_empty
    have hleft := Visit.unique_left hfound
    refine ⟨fun hd => ?_, fun kept => ?_⟩
    · rw [hgen, hafter.slot_discarded hleft untouched hd, Option.map_none]
    · -- the touch leaves the key in the primary generation, at age zero
      obtain ⟨e, he⟩ := Visit.slot_left_of_touches hfound ht
      rw [hgen, hafter.slot_quiet hleft untouched kept, he, Tables.fst_aged]
      simp [Generation.age]
  · obtain ⟨earlier, later, -, hbefore⟩ := hc.of_mem hw
    have hfound := hbefore.unique Tables.unique_empty
    rw [hgen, hgen, Visit.slot_left_of_quiet hfound ht hd, Tables.fst_aged]

/-- A key inserted before a miss of another key and two sweeps is in the tertiary generation. -/
theorem generation_is_age_two_sweeps :
    ∃ s : Usage Nat String, Reachable 1 .unbounded s ∧
      s.cache.tables.generationOf? 7 = some .tertiary := by
  have h : Reachable 1 .unbounded _ :=
    ((leads_alone 1 (start .unbounded) (.insert 7 "seven")).trans
      (leads_alone 1 _ (.lookup 8))).trans
      ((leads_alone 1 _ .evictStale).trans (leads_alone 1 _ .evictStale))
  obtain ⟨-, hlast, -⟩ := generation_is_age h 7
  obtain ⟨-, hage⟩ := hlast [] _ _ rfl (.inr rfl)
    (by simp [Call.Touches, Call.LooksUp, Call.Stores])
  exact ⟨_, h, hage (by simp [Call.Discards])⟩

end Usage

end GenerationalCache
