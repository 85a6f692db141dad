import GenerationalCache.Proofs.Ages
import GenerationalCache.Proofs.Capacity
import GenerationalCache.Proofs.Listeners

/-!
# Racing for a key

Several clients miss the same key at the same time. Each looks it up, goes to make a value of its
own, and stores it. The first lookup reserves a placeholder, and the others have to meet in it,
although other operations come in between and rotations carry it from table to table. Of the values
that are then stored one after the other all but the last are overwritten, and each of these has to
be reported, once.

As long as the key is touched before three rotations have passed, a touch finds what the one before
it has left. So the touches of the key can be read off one after the other as if there was nothing
between them. That the entry is the same one, and not just as empty, is a matter of identities: no
two keys ever have entries of one identity, and a placeholder is made with an identity that is new.
-/

namespace GenerationalCache

variable {K V : Type}

/-- If some element of a list is such, there is a first one. -/
theorem exists_first {α : Type} {P : α → Prop} {l : List α} (h : ∃ a ∈ l, P a) :
    ∃ before a after, l = before ++ a :: after ∧ P a ∧ ∀ b ∈ before, ¬ P b := by
  classical
  have hsome : (l.find? fun a => decide (P a)).isSome := by
    rw [List.find?_isSome]
    simpa using h
  obtain ⟨a, ha⟩ := Option.isSome_iff_exists.mp hsome
  obtain ⟨hp, before, after, rfl, hbefore⟩ := List.find?_eq_some_iff_append.mp ha
  exact ⟨before, a, after, rfl, by simpa using hp, by simpa using hbefore⟩

/-- Where the others come first, none of these comes before one of the others. -/
theorem eq_of_mem_of_append_eq {α : Type} {n : Nat} {a : α} {l before after : List α} (ha : a ∉ l)
    (h : before ++ a :: after = List.replicate n a ++ l) : ∀ b ∈ before, b = a := by
  intro b hb
  rcases List.append_eq_append_iff.mp h with ⟨m, hm, -⟩ | ⟨m, -, hm⟩
  · refine List.eq_of_mem_replicate (n := n) ?_
    rw [hm]
    exact List.mem_append_left _ hb
  · refine absurd ?_ ha
    rw [hm]
    exact List.mem_append_right _ List.mem_cons_self

namespace Call

instance [DecidableEq K] (k : K) : DecidablePred (Touches (V := V) k)
  | lookup k' | get k' => decidable_of_iff (k' = k) (by simp [Touches, LooksUp, Stores])
  | insert k' _ => decidable_of_iff (k' = k) (by simp [Touches, LooksUp, Stores])
  | remove _ | clear | evictStale | evictionRequired => isFalse (by simp [Touches, LooksUp, Stores])

end Call

variable [Ord K]

/-! ## Identities -/

/-- No two keys have entries of one identity, and the next identity is a new one. -/
structure LocalCache.Distinct (c : LocalCache K V) : Prop where
  /-- The identities in the tables were given out before. -/
  used : ∀ {k g e}, c.tables.slot k = some (g, e) → e.id < c.nextId
  /-- Each of them is the identity of one key. -/
  apart : ∀ {k k' g g' e e'}, c.tables.slot k = some (g, e) → c.tables.slot k' = some (g', e') →
    e.id = e'.id → k = k'

namespace Visit

variable {v : Visit K V} {k k' : K}

theorem nextId_le (v : Visit K V) : v.found.nextId ≤ v.left.nextId := by
  obtain ⟨call, c⟩ := v
  cases call with
  | lookup | get | insert => exact Nat.le_succ c.nextId
  | remove | clear | evictStale | evictionRequired => exact Nat.le_refl c.nextId

/-- Whoever touches a key uses up an identity, also if no entry is made with it. -/
theorem nextId_of_touches (ht : v.call.Touches k) : v.left.nextId = v.found.nextId + 1 := by
  obtain ⟨call, c⟩ := v
  cases call with
  | lookup | get | insert => rfl
  | remove | clear | evictStale | evictionRequired => exact ht.elim False.elim False.elim

/-- A visit touches one key at most. -/
theorem key_eq_of_touches (ht : v.call.Touches k) (ht' : v.call.Touches k') : k = k' := by
  obtain ⟨call, c⟩ := v
  cases call with
  | lookup | get | insert =>
      simp only [Call.Touches, Call.LooksUp, Call.Stores, or_false, false_or] at ht ht'
      exact ht.symm.trans ht'
  | remove | clear | evictStale | evictionRequired => exact ht.elim False.elim False.elim

variable [Std.TransOrd K] [Std.LawfulEqOrd K]

/-- An entry that a visit leaves was there before, or was made for the key that the visit touches.
-/
theorem entry_left (h : v.found.tables.Unique) {g : Generation} {e : Entry V}
    (hs : v.left.tables.slot k = some (g, e)) :
    (∃ g', v.found.tables.slot k = some (g', e)) ∨ v.call.Touches k ∧ e.id = v.found.nextId := by
  cases effect h k with
  | lookedUp hl hs' =>
      rw [hs, Tables.find?_eq] at hs'
      cases hfound : v.found.tables.slot k with
      | none =>
          rw [hfound] at hs'
          cases hs'
          exact .inr ⟨.inl hl, rfl⟩
      | some p =>
          rw [hfound] at hs'
          cases hs'
          exact .inl ⟨p.1, rfl⟩
  | stored x hi hs' =>
      rw [hs] at hs'
      cases hs'
      exact .inr ⟨.inr (by rw [hi]; rfl), rfl⟩
  | discarded _ hs' =>
      rw [hs] at hs'
      cases hs'
  | quiet _ _ hs' =>
      rw [hs] at hs'
      obtain ⟨g', hfound, -⟩ := Tables.aged_eq_some.mp hs'.symm
      exact .inl ⟨g', hfound⟩

theorem distinct_left (h : v.found.tables.Unique) (hd : v.found.Distinct) : v.left.Distinct where
  used hs := by
    rcases entry_left h hs with ⟨g', hold⟩ | ⟨ht, hid⟩
    · exact Nat.lt_of_lt_of_le (hd.used hold) v.nextId_le
    · rw [hid, nextId_of_touches ht]
      exact Nat.lt_succ_self _
  apart hs hs' heq := by
    rcases entry_left h hs with ⟨_, hold⟩ | ⟨ht, hid⟩
    · rcases entry_left h hs' with ⟨_, hold'⟩ | ⟨_, hid'⟩
      · exact hd.apart hold hold' heq
      · exact absurd (hd.used hold) (by omega)
    · rcases entry_left h hs' with ⟨_, hold'⟩ | ⟨ht', _⟩
      · exact absurd (hd.used hold') (by omega)
      · exact key_eq_of_touches ht ht'

end Visit

namespace Chronicle

variable {a c : LocalCache K V} {h : List (Visit K V)}

theorem nextId_le (hc : Chronicle a h c) : a.nextId ≤ c.nextId := by
  induction hc with
  | nil => exact Nat.le_refl _
  | snoc v _ ih => exact Nat.le_trans ih v.nextId_le

/-- **Entries of different keys are told apart by their identities.** -/
theorem distinct [Std.TransOrd K] [Std.LawfulEqOrd K] (hc : Chronicle a h c)
    (ha : a.tables.Unique) (hd : a.Distinct) : c.Distinct := by
  induction hc with
  | nil => exact hd
  | snoc v hv ih => exact Visit.distinct_left (hv.unique ha) ih

end Chronicle

theorem LocalCache.distinct_new [Std.TransOrd K] (limit : EntryLimit) :
    ({ limit } : LocalCache K V).Distinct where
  used hs := by simp [Tables.slot_empty] at hs
  apart hs := by simp [Tables.slot_empty] at hs

/-- What a lookup answers with is the entry of its key and of no other. -/
theorem LocalCache.Distinct.id_eq_iff [Std.TransOrd K] [Std.LawfulEqOrd K] {c : LocalCache K V}
    (hd : c.Distinct) (hu : c.tables.Unique) {k k' : K} {g : Generation} {e : Entry V}
    (hs : (c.lookup k).2.tables.slot k' = some (g, e)) :
    e.id = (c.lookup k).1.id ↔ k' = k := by
  have hself : (c.lookup k).2.tables.slot k = some (.primary, (c.lookup k).1) := by
    refine (Tables.slot_lookup_self _ _ _).trans ?_
    rw [← Tables.lookup_fst]
    rfl
  refine ⟨(Visit.distinct_left (v := ⟨.lookup k, c⟩) hu hd).apart hs hself, ?_⟩
  rintro rfl
  rw [hself] at hs
  cases hs
  rfl

/-! ## What is reported -/

/-- What an insert reports as replaced is the value that it displaced. -/
theorem Insertion.filter_replaced (i : Insertion V) :
    i.batches.filter (·.reason = .replaced) = Batch.ofValues i.displaced.toList .replaced := by
  have hrotations : (i.rotations.flatMap (·.batches .capacity)).filter (·.reason = .replaced) =
      [] := by
    rw [List.filter_eq_nil_iff]
    intro b hb
    obtain ⟨r, -, hr⟩ := List.mem_flatMap.mp hb
    obtain ⟨-, rfl⟩ := Batch.mem_ofValues.mp hr
    simp
  rw [batches, List.filter_append, hrotations, List.nil_append, List.filter_eq_self]
  intro b hb
  obtain ⟨-, rfl⟩ := Batch.mem_ofValues.mp hb
  simp

/-- An insert finds the entry of its key if the rotations that make room do not drop it. -/
theorem LocalCache.displaced_insert [Std.TransOrd K] {c : LocalCache K V} {k : K} {x : V}
    {g : Generation} {e : Entry V} (hs : c.tables.slot k = some (g, e))
    (hroom : g.age + (Visit.mk (.insert k x) c).rotations ≤ 2) :
    (c.tables.makeRoom c.limit k).2.find? k = some e ∧ (c.insert k x).1.displaced = e.value := by
  have hfind : (c.tables.makeRoom c.limit k).2.find? k = some e := by
    have hroom' : ¬ 2 < g.age + (c.tables.makeRoom c.limit k).1.length := Nat.not_lt.mpr hroom
    obtain ⟨g', hg'⟩ := Option.ne_none_iff_exists'.mp (mt Generation.ofAge?_eq_none.mp hroom')
    rw [Tables.find?_eq, Tables.slot_makeRoom, hs, Tables.aged, hg']
    rfl
  refine ⟨hfind, ?_⟩
  have hdisplaced : (c.insert k x).1.displaced =
      ((c.tables.makeRoom c.limit k).2.insert k (.resolved c.nextId x)).1.bind Entry.value := rfl
  rw [hdisplaced, Tables.insert_fst, hfind]
  rfl

/-- A value that is reported and was stored once is in no other batch, and each listener hears of
that batch once. -/
theorem Usage.Sound.reported_once [DecidableEq V] [Std.TransOrd K] [Std.LawfulEqOrd K]
    {listeners : Nat} {limit : EntryLimit} {s : Usage K V} (h : s.Sound listeners limit) {o : V}
    (once : s.inserted.count o = 1) {c : Visit K V × Batch V} (hc : c ∈ s.collected)
    (ho : o ∈ c.2.values) :
    s.collected.filter (o ∈ ·.2.values) = [c] ∧
      ∀ l < listeners, (s.owed l ++ s.heard l).filter (o ∈ ·.2.values) = [c] ∧
        (s.ongoing = [] → (s.heard l).filter (o ∈ ·.2.values) = [c]) := by
  have hgone : o ∉ s.cache.tables.resident := fun hheld => h.not_mem_batch once hheld hc ho
  obtain ⟨c', hfilter, -⟩ := h.exists_batch once hgone
  have hmem : c ∈ s.collected.filter (o ∈ ·.2.values) :=
    List.mem_filter.mpr ⟨hc, by simpa using ho⟩
  rw [hfilter] at hmem
  obtain rfl := List.mem_singleton.mp hmem
  refine ⟨hfilter, fun l hl => ⟨?_, fun hidle => ?_⟩⟩
  · have hperm := (h.collected_perm hl).filter (o ∈ ·.2.values)
    rw [hfilter] at hperm
    exact List.perm_singleton.mp hperm.symm
  · refine h.heard_of_not_owed hfilter hl fun howed => ?_
    obtain ⟨rest, hrest⟩ := mem_ongoing_of_mem_owed howed
    rw [hidle] at hrest
    exact absurd hrest List.not_mem_nil

/-! ## Races -/

/-- The clients meet in this entry: the first touch of the key makes it, and every other touch finds
it, until a value is stored. -/
structure MeetsIn (a : LocalCache K V) (k : K) (h : List (Visit K V)) (e : Entry V) : Prop where
  /-- There is no value in it. -/
  placeholder : e.isPlaceholder
  /-- It was not there before they came. -/
  new : a.nextId ≤ e.id
  /-- The first of them finds nothing, and makes it. -/
  made : ∀ {earlier v later}, h = earlier ++ v :: later → v.call.Touches k →
    (∀ w ∈ earlier, ¬ w.call.Touches k) →
    v.found.tables.slot k = none ∧ e = .placeholder v.found.nextId
  /-- The others find it, in a generation that their own rotations do not drop. -/
  found : ∀ {earlier v later}, h = earlier ++ v :: later → v.call.Touches k →
    (∃ w ∈ earlier, w.call.Touches k) → (∀ w ∈ earlier, ¬ w.call.Stores k) →
    ∃ g, v.found.tables.slot k = some (g, e) ∧ g.age + v.rotations ≤ 2

variable [DecidableEq K]

/-- Clients race for a key. Each of them looks it up, and once all have done so each stores a value
of its own; `xs` are their values in the order in which they are stored. Nobody else touches the
key, nobody removes it, and once it was touched it is touched again before three rotations have
passed, those counted that make room for its own next value. -/
structure Race (k : K) (xs : List V) (h : List (Visit K V)) : Prop where
  /-- All lookups come first, then the stores. -/
  calls : (h.filter (·.call.Touches k)).map Visit.call =
    List.replicate xs.length (.lookup k) ++ xs.map (.insert k)
  /-- Nobody removes the key. -/
  kept : ∀ v ∈ h, ¬ v.call.Discards k
  /-- From one touch to the next there are at most two rotations. -/
  fresh : ∀ before rest v after, h = before ++ rest ++ v :: after →
    (∃ u ∈ before, u.call.Touches k) → (∀ w ∈ rest, ¬ w.call.Touches k) → v.call.Touches k →
    rotationsIn rest + v.rotations ≤ 2

namespace Race

variable {k : K} {xs : List V} {h before earlier later mid after : List (Visit K V)}
  {u v : Visit K V} {a c found : LocalCache K V} {e : Entry V} {x : V}

/-- Whoever touches the key is one of the clients. -/
theorem call_eq (r : Race k xs h) (hv : v ∈ h) (ht : v.call.Touches k) :
    v.call = .lookup k ∨ ∃ x ∈ xs, v.call = .insert k x := by
  have hmem : v.call ∈ (h.filter (·.call.Touches k)).map Visit.call :=
    List.mem_map_of_mem (List.mem_filter.mpr ⟨hv, by simpa using ht⟩)
  rw [r.calls] at hmem
  rcases List.mem_append.mp hmem with hm | hm
  · exact .inl (List.eq_of_mem_replicate hm)
  · obtain ⟨x, hx, heq⟩ := List.mem_map.mp hm
    exact .inr ⟨x, hx, heq.symm⟩

/-- The clients look the key up before they store anything. -/
theorem not_stores_before (r : Race k xs h) (heq : h = earlier ++ v :: later)
    (hl : v.call.LooksUp k) : ∀ w ∈ earlier, ¬ w.call.Stores k := by
  have hcall : v.call = .lookup k := by
    rcases r.call_eq (v := v) (by simp [heq]) (.inl hl) with hv | ⟨x, -, hv⟩
    · exact hv
    · rw [hv] at hl
      exact hl.elim
  have hcalls := r.calls
  rw [heq, List.filter_append, List.filter_cons_of_pos (by simpa using .inl hl), List.map_append,
    List.map_cons, hcall] at hcalls
  intro w hw hs
  have hmem : w.call ∈ (earlier.filter (·.call.Touches k)).map Visit.call :=
    List.mem_map_of_mem (List.mem_filter.mpr ⟨hw, by simpa using .inr hs⟩)
  rw [eq_of_mem_of_append_eq (by simp) hcalls _ hmem] at hs
  exact hs

/-- After a client has stored its value nobody looks the key up. -/
theorem not_looksUp_after (r : Race k xs h) (heq : h = earlier ++ v :: later)
    (hs : v.call.Stores k) : ∀ w ∈ later, ¬ w.call.LooksUp k := by
  intro w hw hl
  obtain ⟨between, rest, rfl⟩ := List.append_of_mem hw
  have hcut : h = (earlier ++ v :: between) ++ w :: rest := by
    rw [heq]
    simp
  exact r.not_stores_before hcut hl v (by simp) hs

/-- Whoever touches the key first looks it up. -/
theorem first_eq_lookup (r : Race k xs h) (heq : h = earlier ++ v :: later)
    (untouched : ∀ w ∈ earlier, ¬ w.call.Touches k) (ht : v.call.Touches k) :
    v.call = .lookup k := by
  have hcalls := r.calls
  have hnone : earlier.filter (·.call.Touches k) = [] :=
    List.filter_eq_nil_iff.mpr fun w hw => by simpa using untouched w hw
  rw [heq, List.filter_append, hnone, List.nil_append,
    List.filter_cons_of_pos (by simpa using ht), List.map_cons] at hcalls
  -- there is a value for each lookup, so without a lookup there is nothing
  cases xs with
  | nil => cases hcalls
  | cons x xs => exact (List.cons.inj hcalls).1

/-- Between two touches the key is kept alive, unless it is stored again. -/
theorem lives (r : Race k xs h) (heq : h = before ++ mid ++ v :: after)
    (hbefore : ∃ u ∈ before, u.call.Touches k) (hv : v.call.Touches k)
    (last : ∀ w ∈ mid, ¬ w.call.Stores k) : Lives k mid where
  last := last
  kept w hw := r.kept w (by simp [heq, hw])
  fresh rest hrest huntouched := by
    obtain ⟨mid₁, mid₂, rfl⟩ := hrest
    -- the next touch comes after these and some more visits
    obtain ⟨more, w, others, hsplit, hw, hmore⟩ :=
      exists_first (P := fun w => w.call.Touches k) (l := mid₂ ++ v :: after) ⟨v, by simp, hv⟩
    obtain ⟨u, hu, hut⟩ := hbefore
    have hle := r.fresh (before ++ mid₁) (rest ++ more) w others
      (by rw [heq]; simp only [List.append_assoc, ← hsplit]) ⟨u, by simp [hu], hut⟩
      (List.forall_mem_append.mpr ⟨huntouched, hmore⟩) hw
    rw [rotationsIn_append] at hle
    omega

/-- Every client's lookup answers with the entry. -/
theorem lookup_fst (r : Race k xs h) (m : MeetsIn a k h e)
    (heq : h = earlier ++ ⟨.lookup k, found⟩ :: later) : (found.lookup k).1 = e := by
  have hanswer : (found.lookup k).1 = (found.tables.find? k).getD (.placeholder found.nextId) :=
    found.tables.lookup_fst k _
  rw [hanswer, Tables.find?_eq]
  by_cases htouched : ∃ w ∈ earlier, w.call.Touches k
  · obtain ⟨g, hg, -⟩ := m.found heq (.inl rfl) htouched (r.not_stores_before heq rfl)
    rw [show found.tables.slot k = _ from hg]
    rfl
  · obtain ⟨hnone, rfl⟩ := m.made heq (.inl rfl) fun w hw ht => htouched ⟨w, hw, ht⟩
    rw [show found.tables.slot k = none from hnone]
    rfl

/-- So every client's lookup is a miss. -/
theorem counters_lookup (r : Race k xs h) (m : MeetsIn a k h e)
    (heq : h = earlier ++ ⟨.lookup k, found⟩ :: later) :
    (found.lookup k).2.counters = { found.counters with misses := found.counters.misses + 1 } := by
  have hcounters : (found.lookup k).2.counters =
      found.counters.lookedUp (found.lookup k).1.value.isSome := rfl
  rw [hcounters, r.lookup_fst m heq, Option.isNone_iff_eq_none.mp m.placeholder]
  rfl

variable [Std.TransOrd K]

/-- The first value takes the place of the entry, and nothing is reported as replaced. -/
theorem first_insert (r : Race k xs h) (m : MeetsIn a k h e)
    (heq : h = earlier ++ ⟨.insert k x, found⟩ :: later)
    (first : ∀ w ∈ earlier, ¬ w.call.Stores k) :
    (found.tables.makeRoom found.limit k).2.find? k = some e ∧
      (Visit.mk (.insert k x) found).batches.filter (·.reason = .replaced) = [] := by
  have htouched : ∃ w ∈ earlier, w.call.Touches k := by
    -- otherwise the race would begin with this insert
    by_contra hnone
    have hcall := r.first_eq_lookup heq (fun w hw ht => hnone ⟨w, hw, ht⟩) (.inr rfl)
    cases hcall
  obtain ⟨g, hg, hroom⟩ := m.found heq (.inr rfl) htouched first
  obtain ⟨hfind, hdisplaced⟩ := LocalCache.displaced_insert hg hroom
  refine ⟨hfind, (found.insert k x).1.filter_replaced.trans ?_⟩
  rw [hdisplaced, Option.isNone_iff_eq_none.mp m.placeholder]
  rfl

variable [Std.LawfulEqOrd K]

/-- **A touch finds what an earlier one has left**, if nothing was stored in between, and the
rotations that make room for the next value do not drop it either. -/
theorem finds (r : Race k xs h) (hc : Chronicle a h c) (ha : a.tables.Unique)
    (heq : h = before ++ u :: mid ++ v :: after) (hu : u.call.Touches k) (hv : v.call.Touches k)
    (hleft : u.left.tables.slot k = some (.primary, e)) (last : ∀ w ∈ mid, ¬ w.call.Stores k) :
    ∃ g, v.found.tables.slot k = some (g, e) ∧ g.age + v.rotations ≤ 2 := by
  have hsplit : before ++ u :: mid ++ v :: after = before ++ [u] ++ mid ++ v :: after := by simp
  have hcut : Chronicle a (before ++ u :: (mid ++ v :: after)) c := by
    rw [heq, List.append_assoc, List.cons_append] at hc
    exact hc
  obtain ⟨hbefore, hafter⟩ := hcut.split_at
  obtain ⟨hmid, -⟩ := hafter.split_at
  have halive := r.lives (heq.trans hsplit) ⟨u, by simp, hu⟩ hv last
  obtain ⟨g, rest, hg, ⟨mid₁, rfl⟩, huntouched, hrot⟩ :=
    hmid.slot_of_lives (Visit.unique_left (hbefore.unique ha)) hleft halive
  refine ⟨g, hg, ?_⟩
  rw [← hrot]
  refine r.fresh (before ++ u :: mid₁) rest v after ?_ ⟨u, by simp, hu⟩ huntouched hv
  rw [heq]
  simp

/-- **The clients meet in one placeholder.** -/
theorem exists_meetsIn (r : Race k xs h) (hc : Chronicle a h c) (ha : a.tables.Unique)
    (hk : a.tables.slot k = none) : ∃ e, MeetsIn a k h e := by
  by_cases htouch : ∃ v ∈ h, v.call.Touches k
  · obtain ⟨quiet, v₀, rest, heq₀, ht₀, hquiet⟩ := exists_first htouch
    have hcall := r.first_eq_lookup heq₀ hquiet ht₀
    have hc₀ := hc
    rw [heq₀] at hc₀
    obtain ⟨hbefore, -⟩ := hc₀.split_at
    have hnone := hbefore.slot_untouched ha hquiet hk
    -- the first touch of the key is the same one, wherever it is looked for
    have hhead : ∀ {q w t}, h = q ++ w :: t → (∀ u ∈ q, ¬ u.call.Touches k) →
        w.call.Touches k → (h.filter (·.call.Touches k)).head? = some w := by
      intro q w t hq hqt hw
      rw [hq, List.filter_append, List.filter_eq_nil_iff.mpr fun u hu => by simpa using hqt u hu,
        List.filter_cons_of_pos (by simpa using hw)]
      rfl
    have hfirst : ∀ {q w t}, h = q ++ w :: t → (∀ u ∈ q, ¬ u.call.Touches k) →
        w.call.Touches k → w = v₀ := fun hq hqt hw =>
      Option.some.inj ((hhead hq hqt hw).symm.trans (hhead heq₀ hquiet ht₀))
    refine ⟨.placeholder v₀.found.nextId, rfl, hbefore.nextId_le, ?_, ?_⟩
    · intro earlier v later heq ht huntouched
      obtain rfl := hfirst heq huntouched ht
      exact ⟨hnone, rfl⟩
    · intro earlier v later heq ht htouched last
      obtain ⟨q, w, mid, rfl, hw, hq⟩ := exists_first htouched
      have hcut : h = q ++ w :: (mid ++ v :: later) := by
        rw [heq]
        simp
      obtain rfl := hfirst hcut hq hw
      refine r.finds hc ha heq hw ht ?_ fun u hu => last u (by simp [hu])
      -- it has made the placeholder and left it in the primary table
      obtain ⟨call, found⟩ := w
      cases hcall
      have hself := Tables.slot_lookup_self found.tables k (.placeholder found.nextId)
      rw [Tables.find?_eq, hnone] at hself
      exact hself
  · refine ⟨.placeholder a.nextId, rfl, Nat.le_refl _, fun {_} v _ heq ht => ?_,
      fun {_} v _ heq ht => ?_⟩
    · exact absurd ⟨v, by simp [heq], ht⟩ htouch
    · exact absurd ⟨v, by simp [heq], ht⟩ htouch

/-- But only the first one adds the key. -/
theorem size_lookup (r : Race k xs h) (m : MeetsIn a k h e) (hc : Chronicle a h c)
    (ha : a.tables.Unique) (heq : h = earlier ++ ⟨.lookup k, found⟩ :: later) :
    ((∀ w ∈ earlier, ¬ w.call.Touches k) → found.tables.generationOf? k = none ∧
      (found.lookup k).2.tables.size = found.tables.size + 1) ∧
    ((∃ w ∈ earlier, w.call.Touches k) → found.tables.generationOf? k ≠ none ∧
      (found.lookup k).2.tables.size = found.tables.size) := by
  rw [heq] at hc
  have hsize : (found.lookup k).2.tables.size = found.tables.sizeWith k :=
    (hc.split_at.1.unique ha).size_lookup k _
  rw [hsize, Tables.sizeWith, Tables.generationOf?_eq]
  refine ⟨fun huntouched => ?_, fun htouched => ?_⟩
  · rw [show found.tables.slot k = none from (m.made heq (.inl rfl) huntouched).1]
    exact ⟨rfl, rfl⟩
  · obtain ⟨g, hg, -⟩ := m.found heq (.inl rfl) htouched (r.not_stores_before heq rfl)
    rw [show found.tables.slot k = _ from hg]
    exact ⟨Option.some_ne_none g, rfl⟩

/-- Each next value takes the place of the one before, which is reported as replaced. -/
theorem next_insert (r : Race k xs h) (hc : Chronicle a h c) (ha : a.tables.Unique) {y : V}
    (heq : h = before ++ ⟨.insert k y, found⟩ :: mid ++ v :: after)
    (hv : v.call.Stores k) (next : ∀ w ∈ mid, ¬ w.call.Stores k) :
    v.batches.filter (·.reason = .replaced) = [⟨[y], .replaced⟩] := by
  obtain ⟨g, hg, hroom⟩ := r.finds hc ha heq (.inr rfl) (.inr hv) (Tables.slot_insert_self _ _ _)
    next
  obtain ⟨call, found'⟩ := v
  rcases r.call_eq (by simp [heq]) (.inr hv) with rfl | ⟨x, -, rfl⟩
  · exact hv.elim
  · refine (found'.insert k x).1.filter_replaced.trans ?_
    rw [(LocalCache.displaced_insert hg hroom).2]
    rfl

/-- The last value stays until it expires. -/
theorem value_last (r : Race k xs h) (hc : Chronicle a h c) (ha : a.tables.Unique)
    (heq : h = earlier ++ ⟨.insert k x, found⟩ :: later)
    (last : ∀ w ∈ later, ¬ w.call.Stores k) (young : rotationsIn later ≤ 2) :
    (c.lookup k).1.value = some x := by
  have huntouched : ∀ w ∈ later, ¬ w.call.Touches k := by
    rintro w hw (hlooks | hstores)
    · exact r.not_looksUp_after heq rfl w hw hlooks
    · exact last w hw hstores
  rw [heq] at hc
  obtain ⟨hbefore, hafter⟩ := hc.split_at
  have hslot := hafter.slot_quiet (Visit.unique_left (hbefore.unique ha)) huntouched
    fun w hw => r.kept w (by simp [heq, hw])
  have hself : (Visit.mk (.insert k x) found).left.tables.slot k =
      some (.primary, .resolved found.nextId x) := Tables.slot_insert_self _ _ _
  obtain ⟨g, hg⟩ := Option.ne_none_iff_exists'.mp
    (mt Generation.ofAge?_eq_none.mp (Nat.not_lt.mpr young))
  rw [LocalCache.value_lookup, Tables.find?_eq, hslot, hself, Tables.aged,
    show Generation.primary.age = 0 from rfl, Nat.zero_add, hg]
  rfl

end Race

/-! ## What comes of a race -/

namespace Usage

variable [DecidableEq V]

/-- What has come of a race for a key. It was absent in `s`, the visits since then are `h`, and `e`
is the entry in which the clients have met. -/
structure Raced (listeners : Nat) (s s' : Usage K V) (k : K) (h : List (Visit K V))
    (e : Entry V) : Prop where
  /-- The entry is a placeholder, and a new one. -/
  placeholder : e.isPlaceholder ∧ s.cache.nextId ≤ e.id
  /-- Every lookup answers with it and counts one miss, and it is the entry of no other key. -/
  lookups : ∀ found, ⟨.lookup k, found⟩ ∈ h →
    (found.lookup k).1 = e ∧
    (∀ answer, ⟨⟨.lookup k, found⟩, answer⟩ ∈ s'.answered → answer = .ok e) ∧
    (found.lookup k).2.counters = { found.counters with misses := found.counters.misses + 1 } ∧
    ∀ k' g e', (found.lookup k).2.tables.slot k' = some (g, e') → (e'.id = e.id ↔ k' = k)
  /-- The first lookup adds the key, and the others find it. -/
  added : ∀ earlier found later, h = earlier ++ ⟨.lookup k, found⟩ :: later →
    ((∀ w ∈ earlier, ¬ w.call.Touches k) → found.tables.generationOf? k = none ∧
      (found.lookup k).2.tables.size = found.tables.size + 1) ∧
    ((∃ w ∈ earlier, w.call.Touches k) → found.tables.generationOf? k ≠ none ∧
      (found.lookup k).2.tables.size = found.tables.size)
  /-- The first value takes the place of the placeholder, and nothing is reported as replaced. -/
  silent : ∀ earlier x found later, h = earlier ++ ⟨.insert k x, found⟩ :: later →
    (∀ w ∈ earlier, ¬ w.call.Stores k) →
    (found.tables.makeRoom found.limit k).2.find? k = some e ∧
      (Visit.mk (.insert k x) found).batches.filter (·.reason = .replaced) = []
  /-- Every value but the last one is reported as replaced by the next insert of the key. If it was
  stored once, it is in no other batch, and each listener hears of it once. -/
  reported : ∀ earlier y found later, h = earlier ++ ⟨.insert k y, found⟩ :: later →
    (∃ w ∈ later, w.call.Stores k) →
    ∃ between v after, later = between ++ v :: after ∧ v.call.Stores k ∧
      (∀ w ∈ between, ¬ w.call.Stores k) ∧
      v.batches.filter (·.reason = .replaced) = [⟨[y], .replaced⟩] ∧
      (s'.inserted.count y = 1 →
        s'.collected.filter (y ∈ ·.2.values) = [(v, ⟨[y], .replaced⟩)] ∧
        ∀ l < listeners,
          (s'.owed l ++ s'.heard l).filter (y ∈ ·.2.values) = [(v, ⟨[y], .replaced⟩)] ∧
          (s'.ongoing = [] → (s'.heard l).filter (y ∈ ·.2.values) = [(v, ⟨[y], .replaced⟩)]))
  /-- The last value is what the key then serves, until it expires. -/
  served : ∀ earlier (x : V) found later, h = earlier ++ ⟨.insert k x, found⟩ :: later →
    (∀ w ∈ later, ¬ w.call.Stores k) → rotationsIn later ≤ 2 →
    ∃ s'', Leads listeners s' s'' ∧
      s''.answered = s'.answered ++ [⟨⟨.get k, s'.cache⟩, .ok (some x)⟩]

/-- **Racing clients share one placeholder, and all values but the last are reported once.** In a
reachable state a key is absent, and then any number of clients race for it, in any interleaving
with each other, with operations on other keys and with rotations. -/
theorem racers_share_placeholder [Std.TransOrd K] [Std.LawfulEqOrd K] {listeners : Nat}
    {limit : EntryLimit} {s s' : Usage K V} (hs : Reachable listeners limit s)
    (hl : Leads listeners s s') {k : K} (absent : s.cache.tables.generationOf? k = none)
    {h : List (Visit K V)} (since : s'.history = s.history ++ h) {xs : List V}
    (race : Race k xs h) : ∃ e, Raced listeners s s' k h e := by
  have hsound := hs.sound
  have hsound' := (show Reachable listeners limit s' from hs.trans hl).sound
  have hu := hsound.chronicle.unique Tables.unique_empty
  have hc : Chronicle s.cache h s'.cache := by
    obtain ⟨h', hh', hc⟩ := hl.chronicle
    rw [since] at hh'
    rwa [List.append_cancel_left hh']
  have hk : s.cache.tables.slot k = none := by
    rw [Tables.generationOf?_eq] at absent
    exact Option.map_eq_none_iff.mp absent
  have hmem : ∀ v ∈ h, v ∈ s'.history := fun v hv => by
    rw [since]
    exact List.mem_append_right _ hv
  obtain ⟨e, m⟩ := race.exists_meetsIn hc hu hk
  refine ⟨e, ⟨m.placeholder, m.new⟩, ?_, fun _ _ _ => race.size_lookup m hc hu,
    fun _ _ _ _ => race.first_insert m, ?_, ?_⟩
  · intro found hfound
    obtain ⟨earlier, later, heq⟩ := List.append_of_mem hfound
    obtain ⟨past, -, -, hpast⟩ := hsound'.chronicle.of_mem (hmem _ hfound)
    have hdistinct := hpast.distinct Tables.unique_empty (LocalCache.distinct_new limit)
    have he := race.lookup_fst m heq
    refine ⟨he, fun answer ha => ?_, race.counters_lookup m heq, fun k' g e' hs' => ?_⟩
    · rw [← he]
      exact (hsound'.answered _ ha).2
    · rw [← he]
      exact hdistinct.id_eq_iff (hpast.unique Tables.unique_empty) hs'
  · intro earlier y found later heq hstored
    obtain ⟨between, v, after, rfl, hv, hbetween⟩ := exists_first hstored
    have hcut : h = earlier ++ ⟨.insert k y, found⟩ :: between ++ v :: after := by
      rw [heq]
      simp
    have hreplaced := race.next_insert hc hu hcut hv hbetween
    refine ⟨between, v, after, rfl, hv, hbetween, hreplaced, fun once => ?_⟩
    have hbatch : ⟨[y], .replaced⟩ ∈ v.batches := by
      refine List.mem_of_mem_filter (p := (·.reason = .replaced)) ?_
      rw [hreplaced]
      exact List.mem_singleton_self _
    refine hsound'.reported_once once ?_ (List.mem_singleton_self y)
    exact List.mem_flatMap.mpr ⟨v, hmem v (by simp [heq]), List.mem_map.mpr ⟨_, hbatch, rfl⟩⟩
  · intro earlier x found later heq last young
    refine ⟨_, leads_alone listeners s' (.get k), ?_⟩
    rw [← race.value_last hc hu heq last young]
    rfl

/-- Two clients miss a key, sweeps come before the second lookup and before the last insert, and
another key is stored in between. -/
theorem racers_share_placeholder_two_clients :
    ∃ (s s' : Usage Nat Nat) (h : List (Visit Nat Nat)) (e : Entry Nat),
      Reachable 2 .unbounded s ∧ Leads 2 s s' ∧ s'.history = s.history ++ h ∧
        Race 7 [70, 71] h ∧ rotationsIn h = 2 ∧ s'.ongoing = [] ∧ Raced 2 s s' 7 h e := by
  let calls : List (Call Nat Nat) :=
    [.lookup 7, .evictStale, .lookup 7, .insert 8 80, .insert 7 70, .evictStale, .insert 7 71]
  obtain ⟨s', hl, since, hidle⟩ := leads_in_turn 2 (start .unbounded) calls
  let h : List (Visit Nat Nat) := LocalCache.visitsOf { limit := .unbounded } calls
  have hrotations : rotationsIn h = 2 := rfl
  have race : Race 7 [70, 71] h := by
    refine ⟨rfl, by simp [h, calls, LocalCache.visitsOf, Call.Discards], ?_⟩
    intro before rest v after heq _ _ _
    rw [heq, rotationsIn_append, rotationsIn_append, rotationsIn] at hrotations
    omega
  obtain ⟨e, he⟩ := racers_share_placeholder .refl hl rfl since race
  exact ⟨_, s', h, e, .refl, hl, since, race, hrotations, hidle, he⟩

end Usage

end GenerationalCache
