import GenerationalCache.Proofs.Departures

/-!
# Listeners hear of every value that leaves

The values that an operation takes out of the tables are reported after its critical section, one
call after the other, and during every call the cache may be used again: more values are stored,
more leave, and the batches of several operations are under way at the same time. Still no value is
lost and none is reported twice.

Two accounts that hold at every moment give this. The tables and the collected batches together hold
every value as often as it was stored, since each visit keeps that balance. And for each listener
the batches that it has heard of and those that it is still to hear of are together the collected
ones, since an operation has nothing left to do but to make the calls that its visit requires. So a
value that was stored once is in the tables, or in one batch; and that batch is still being
delivered, or every listener has heard of it, once.
-/

namespace GenerationalCache

variable {K V : Type}

/-- When a value occurs once in a sequence of lists, it occurs in one of them. -/
theorem filter_mem_eq_singleton [DecidableEq V] {α : Type} {l : List α} {f : α → List V} {o : V}
    (h : (l.flatMap f).count o = 1) : ∃ c, l.filter (o ∈ f ·) = [c] ∧ (f c).count o = 1 := by
  induction l with
  | nil => cases h
  | cons c l ih =>
      rw [List.flatMap_cons, List.count_append] at h
      by_cases hc : o ∈ f c
      · have hpos := List.count_pos_iff.mpr hc
        have hrest : (l.flatMap f).count o = 0 := by omega
        refine ⟨c, ?_, by omega⟩
        rw [List.filter_cons_of_pos (by simpa using hc), List.filter_eq_nil_iff.mpr]
        intro d hd hod
        exact List.count_eq_zero.mp hrest (List.mem_flatMap.mpr ⟨d, hd, by simpa using hod⟩)
      · rw [List.count_eq_zero.mpr hc, Nat.zero_add] at h
        rw [List.filter_cons_of_neg (by simpa using hc)]
        exact ih h

/-- Of all listeners one is meant. -/
theorem filterMap_range_eq_singleton {α : Type} {n l : Nat} (hl : l < n) (a : α) :
    (List.range n).filterMap (fun i => if i = l then some a else none) = [a] := by
  induction n with
  | zero => exact absurd hl (Nat.not_lt_zero l)
  | succ n ih =>
      rw [List.range_succ, List.filterMap_append]
      by_cases hn : n = l
      · have hnone : (List.range n).filterMap (fun i => if i = l then some a else none) = [] := by
          rw [List.filterMap_eq_nil_iff]
          intro i hi
          have := List.mem_range.mp hi
          rw [if_neg (by omega)]
        rw [hnone, hn]
        simp
      · rw [ih (by omega)]
        simp [hn]

variable [Ord K]

/-- A value is in the tables when some table has an entry with it. -/
theorem Tables.mem_resident [Std.TransOrd K] [Std.LawfulEqOrd K] {t : Tables K V} {o : V} :
    o ∈ t.resident ↔ ∃ p : Generation × K, ((t.table p.1)[p.2]?).bind Entry.value = some o := by
  have htable : ∀ u : Table K V, o ∈ Entry.values u.values ↔
      ∃ k : K, (u[k]?).bind Entry.value = some o := by
    intro u
    rw [Table.values_eq_map_snd]
    simp only [Entry.values, List.mem_filterMap, List.mem_map, Option.bind_eq_some_iff]
    constructor
    · rintro ⟨e, ⟨⟨k, e'⟩, hm, rfl⟩, hv⟩
      exact ⟨k, e', Std.TreeMap.mem_toList_iff_getElem?_eq_some.mp hm, hv⟩
    · rintro ⟨k, e, hk, hv⟩
      exact ⟨e, ⟨(k, e), Std.TreeMap.mem_toList_iff_getElem?_eq_some.mpr hk, rfl⟩, hv⟩
  rw [resident_eq, List.mem_append, List.mem_append, htable, htable, htable]
  constructor
  · rintro ((⟨k, hk⟩ | ⟨k, hk⟩) | ⟨k, hk⟩)
    · exact ⟨(.primary, k), hk⟩
    · exact ⟨(.secondary, k), hk⟩
    · exact ⟨(.tertiary, k), hk⟩
  · rintro ⟨⟨g, k⟩, hk⟩
    cases g with
    | primary => exact .inl (.inl ⟨k, hk⟩)
    | secondary => exact .inl (.inr ⟨k, hk⟩)
    | tertiary => exact .inr ⟨k, hk⟩

/-- Where a value that was stored may be. -/
inductive Place where
  /-- In the tables. -/
  | held
  /-- In a batch that is still being delivered. -/
  | pending
  /-- In a batch that every listener has been called with. -/
  | delivered

namespace Usage

/-- The values that were stored, in order. -/
def inserted (s : Usage K V) : List V := s.history.filterMap (·.call.stored?)

/-- The batches that were collected, in order, each with its visit. -/
def collected (s : Usage K V) : List (Visit K V × Batch V) := s.history.flatMap Visit.collected

/-- What a listener hears from a call: the batch if the call is its own. -/
def hears (l : Nat) (c : Visit K V × Delivery V) : Option (Visit K V × Batch V) :=
  if c.2.listener = l then some (c.1, c.2.batch) else none

/-- The batches that a listener has been called with. -/
def heard (s : Usage K V) (l : Nat) : List (Visit K V × Batch V) := s.told.filterMap (hears l)

/-- The batches that a listener is still to be called with. -/
def owed (s : Usage K V) (l : Nat) : List (Visit K V × Batch V) := s.outstanding.filterMap (hears l)

/-- The value is at this place. -/
def IsAt [DecidableEq V] (listeners : Nat) (s : Usage K V) (o : V) : Place → Prop
  | .held => ∃! p : Generation × K, ((s.cache.tables.table p.1)[p.2]?).bind Entry.value = some o
  | .pending => ∃ c, s.collected.filter (o ∈ ·.2.values) = [c] ∧ c.2.values.count o = 1 ∧
      ∃ l < listeners, c ∈ s.owed l
  | .delivered => ∃ c, s.collected.filter (o ∈ ·.2.values) = [c] ∧ c.2.values.count o = 1 ∧
      ∀ l < listeners, c ∉ s.owed l ∧ (s.heard l).filter (o ∈ ·.2.values) = [c]

/-- The listeners have been told of everything that left the tables, or are about to be. -/
structure Accounted [DecidableEq V] (listeners : Nat) (s : Usage K V) : Prop where
  /-- A value that was stored once is at exactly one of the three places. -/
  place : ∀ o, s.inserted.count o = 1 → ∃! p, s.IsAt listeners o p
  /-- However often a value was stored, the tables and the batches hold it as often. -/
  balance : ∀ o, s.inserted.count o =
    s.cache.tables.resident.count o + (s.collected.flatMap (·.2.values)).count o
  /-- Every listener is called once with each batch. -/
  shared : ∀ l < listeners, s.collected.Perm (s.owed l ++ s.heard l)
  /-- A batch is pending only as long as the operation that collected it is in progress. -/
  pending : ∀ l, ∀ c ∈ s.owed l, ∃ rest, .finishing c.1 rest ∈ s.ongoing
  /-- Once no operation is in progress, every value that was stored once and is not in the tables
  has been delivered. -/
  settled : s.ongoing = [] → ∀ o, s.inserted.count o = 1 →
    s.IsAt listeners o .held ∨ s.IsAt listeners o .delivered
  /-- The reason of a batch is the true one for each of its values. -/
  reason : ∀ c ∈ s.collected, ∀ o ∈ c.2.values, ∃ earlier later,
    s.history = earlier ++ c.1 :: later ∧ Dismisses earlier c.1 o c.2.reason
  /-- Every call that was made is to one of the listeners, with a collected batch that is not empty
  and holds only values that were stored and, if they were stored once, are in no table. -/
  calls : ∀ c ∈ s.told, c.2.listener < listeners ∧ (c.1, c.2.batch) ∈ s.collected ∧
    c.2.batch.values ≠ [] ∧ ∀ o ∈ c.2.batch.values,
      o ∈ s.inserted ∧ (s.inserted.count o = 1 → o ∉ s.cache.tables.resident)

/-! ## Batches and calls -/

/-- Each listener hears once of each batch that a visit collected. -/
theorem filterMap_hears_calls {listeners l : Nat} (hl : l < listeners) (v : Visit K V) :
    (v.calls listeners).filterMap (hears l) = v.collected := by
  rw [Visit.calls, deliveries, List.map_flatMap, List.filterMap_flatMap, Visit.collected,
    List.map_eq_flatMap]
  refine List.flatMap_congr fun b _ => ?_
  rw [Batch.deliveries, List.map_map, List.filterMap_map]
  exact filterMap_range_eq_singleton hl (v, b)

theorem Sound.collected_perm {listeners : Nat} {limit : EntryLimit} {s : Usage K V}
    (h : s.Sound listeners limit) {l : Nat} (hl : l < listeners) :
    s.collected.Perm (s.owed l ++ s.heard l) := by
  have hcalls := h.calls.filterMap (hears l)
  rw [List.filterMap_flatMap, List.filterMap_append] at hcalls
  simp only [filterMap_hears_calls hl] at hcalls
  exact hcalls

/-- A pending batch belongs to an operation in progress. -/
theorem mem_ongoing_of_mem_owed {s : Usage K V} {l : Nat} {c : Visit K V × Batch V}
    (hc : c ∈ s.owed l) : ∃ rest, .finishing c.1 rest ∈ s.ongoing := by
  obtain ⟨d, hd, hdc⟩ := List.mem_filterMap.mp hc
  obtain ⟨o, ho, hod⟩ := List.mem_flatMap.mp hd
  cases o with
  | waiting call => exact absurd hod List.not_mem_nil
  | finishing v rest =>
      obtain ⟨d', -, rfl⟩ := List.mem_map.mp hod
      unfold hears at hdc
      split at hdc
      · cases hdc
        exact ⟨rest, ho⟩
      · cases hdc

/-- Every call that was made hands a collected batch to a listener. -/
theorem Sound.mem_collected_of_told {listeners : Nat} {limit : EntryLimit} {s : Usage K V}
    (h : s.Sound listeners limit) {c : Visit K V × Delivery V} (hc : c ∈ s.told) :
    c.2.listener < listeners ∧ (c.1, c.2.batch) ∈ s.collected := by
  have hmem : c ∈ s.history.flatMap (Visit.calls listeners) :=
    h.calls.symm.subset (List.mem_append_right _ hc)
  obtain ⟨v, hv, hcv⟩ := List.mem_flatMap.mp hmem
  obtain ⟨d, hd, rfl⟩ := List.mem_map.mp hcv
  obtain ⟨b, hb, hdb⟩ := List.mem_flatMap.mp hd
  obtain ⟨l, hl, rfl⟩ := List.mem_map.mp hdb
  exact ⟨List.mem_range.mp hl, List.mem_flatMap.mpr ⟨v, hv, List.mem_map.mpr ⟨b, hb, rfl⟩⟩⟩

/-! ## The account -/

variable [DecidableEq V] {listeners : Nat} {limit : EntryLimit} {s : Usage K V} {o : V}

/-- A value that was stored once was stored under one key. -/
theorem key_eq_of_inserted_once (once : s.inserted.count o = 1) {k k' : K}
    {found found' : LocalCache K V} (hk : ⟨.insert k o, found⟩ ∈ s.history)
    (hk' : ⟨.insert k' o, found'⟩ ∈ s.history) : k = k' := by
  rw [inserted, List.filterMap_eq_flatMap_toList] at once
  obtain ⟨v, hv, -⟩ := filter_mem_eq_singleton once
  have hmem : ∀ w ∈ s.history, w.call.stored? = some o → w = v := by
    intro w hw hstored
    have : w ∈ s.history.filter (o ∈ ·.call.stored?.toList) :=
      List.mem_filter.mpr ⟨hw, by simp [hstored]⟩
    rw [hv] at this
    exact List.mem_singleton.mp this
  have h₁ := hmem _ hk rfl
  have h₂ := hmem _ hk' rfl
  rw [← h₂] at h₁
  cases h₁
  rfl

/-- For each listener the batch of a value is either still owed or has been heard of, once. -/
theorem Sound.heard_of_not_owed (h : s.Sound listeners limit) {c : Visit K V × Batch V}
    (hc : s.collected.filter (o ∈ ·.2.values) = [c]) {l : Nat} (hl : l < listeners)
    (howed : c ∉ s.owed l) : (s.heard l).filter (o ∈ ·.2.values) = [c] := by
  have hperm := (h.collected_perm hl).filter (o ∈ ·.2.values)
  rw [hc, List.filter_append] at hperm
  rcases List.append_eq_singleton_iff.mp (List.perm_singleton.mp hperm.symm) with hs | hs
  · exact hs.2
  · refine absurd (List.mem_of_mem_filter (?_ : c ∈ (s.owed l).filter (o ∈ ·.2.values))) howed
    rw [hs.1]
    exact List.mem_singleton_self c

variable [Std.TransOrd K] [Std.LawfulEqOrd K]

/-- The tables and the collected batches hold every value as often as it was stored. -/
theorem Sound.count_inserted (h : s.Sound listeners limit) (o : V) :
    s.inserted.count o =
      s.cache.tables.resident.count o + (s.collected.flatMap (·.2.values)).count o := by
  have hnew : ({ limit : LocalCache K V }).tables.resident = [] := rfl
  have hperm := h.chronicle.balance Tables.unique_empty
  rw [hnew, List.append_nil] at hperm
  rw [← List.count_append]
  exact hperm.count_eq o

/-- A value that was stored once is in the tables as one entry of one table. -/
theorem Sound.isAt_held_iff (h : s.Sound listeners limit) (once : s.inserted.count o = 1) :
    s.IsAt listeners o .held ↔ o ∈ s.cache.tables.resident := by
  rw [Tables.mem_resident]
  refine ⟨fun ⟨p, hp, _⟩ => ⟨p, hp⟩, fun ⟨p, hp⟩ => ⟨p, hp, ?_⟩⟩
  have hu := h.chronicle.unique Tables.unique_empty
  -- wherever the value is, its slot is filled, and the last insert of that key has stored it
  have hslot : ∀ q : Generation × K, ((s.cache.tables.table q.1)[q.2]?).bind Entry.value = some o →
      (∃ e, s.cache.tables.slot q.2 = some (q.1, e)) ∧
        ∃ found, ⟨.insert q.2 o, found⟩ ∈ s.history := by
    intro q hq
    obtain ⟨e, he, hv⟩ := Option.bind_eq_some_iff.mp hq
    have hs := hu.slot_eq_some.mpr he
    obtain ⟨earlier, found, later, hh, -⟩ :=
      (h.chronicle.servesAged_of_slot Tables.unique_empty (Tables.slot_empty q.2) hs hv).serves
    exact ⟨⟨e, hs⟩, found, by simp [hh]⟩
  intro q hq
  obtain ⟨⟨e, he⟩, found, hf⟩ := hslot p hp
  obtain ⟨⟨e', he'⟩, found', hf'⟩ := hslot q hq
  have hkey : q.2 = p.2 := key_eq_of_inserted_once once hf' hf
  rw [hkey, he] at he'
  have hgen : p.1 = q.1 := by simpa using congrArg (Option.map Prod.fst) he'
  exact Prod.ext hgen.symm hkey

/-- A value that was stored once and has left the tables is in one batch. -/
theorem Sound.exists_batch (h : s.Sound listeners limit) (once : s.inserted.count o = 1)
    (hgone : o ∉ s.cache.tables.resident) :
    ∃ c, s.collected.filter (o ∈ ·.2.values) = [c] ∧ c.2.values.count o = 1 := by
  have hcount := h.count_inserted o
  rw [once, List.count_eq_zero.mpr hgone, Nat.zero_add] at hcount
  exact filter_mem_eq_singleton hcount.symm

/-- A value that was stored once and is in the tables is in no batch. -/
theorem Sound.not_mem_batch (h : s.Sound listeners limit) (once : s.inserted.count o = 1)
    (hheld : o ∈ s.cache.tables.resident) {c : Visit K V × Batch V} (hc : c ∈ s.collected) :
    o ∉ c.2.values := by
  intro ho
  have hcount := h.count_inserted o
  have h₁ := List.count_pos_iff.mpr hheld
  have hin : o ∈ s.collected.flatMap (·.2.values) := List.mem_flatMap.mpr ⟨c, hc, ho⟩
  have h₂ := List.count_pos_iff.mpr hin
  omega

/-- A value that was stored once is at exactly one place. -/
theorem Sound.existsUnique_place (h : s.Sound listeners limit)
    (once : s.inserted.count o = 1) : ∃! p, s.IsAt listeners o p := by
  by_cases hheld : o ∈ s.cache.tables.resident
  · have hnone : ∀ c, s.collected.filter (o ∈ ·.2.values) = [c] → False := by
      intro c hc
      obtain ⟨hcoll, ho⟩ := List.mem_filter.mp (hc ▸ List.mem_singleton_self c)
      exact h.not_mem_batch once hheld hcoll (of_decide_eq_true ho)
    refine ⟨.held, (h.isAt_held_iff once).mpr hheld, fun p hp => ?_⟩
    cases p with
    | held => rfl
    | pending =>
        obtain ⟨c, hc, -⟩ := hp
        exact (hnone c hc).elim
    | delivered =>
        obtain ⟨c, hc, -⟩ := hp
        exact (hnone c hc).elim
  · -- there is one batch, and the two remaining places differ in whether it is owed to anybody
    obtain ⟨c, hc, hcount⟩ := h.exists_batch once hheld
    have hsame : ∀ c', s.collected.filter (o ∈ ·.2.values) = [c'] → c' = c := by
      intro c' hc'
      rw [hc] at hc'
      exact (List.singleton_inj.mp hc').symm
    have hnot : ¬ s.IsAt listeners o .held := fun hp => hheld ((h.isAt_held_iff once).mp hp)
    by_cases howed : ∃ l < listeners, c ∈ s.owed l
    · refine ⟨.pending, ⟨c, hc, hcount, howed⟩, fun p hp => ?_⟩
      cases p with
      | held => exact absurd hp hnot
      | pending => rfl
      | delivered =>
          obtain ⟨c', hc', -, hall⟩ := hp
          obtain ⟨l, hl, hlo⟩ := howed
          rw [hsame c' hc'] at hall
          exact absurd hlo (hall l hl).1
    · have hall : ∀ l < listeners, c ∉ s.owed l := fun l hl hlo => howed ⟨l, hl, hlo⟩
      refine ⟨.delivered, ⟨c, hc, hcount, fun l hl => ?_⟩, fun p hp => ?_⟩
      · exact ⟨hall l hl, h.heard_of_not_owed hc hl (hall l hl)⟩
      · cases p with
        | held => exact absurd hp hnot
        | pending =>
            obtain ⟨c', hc', -, hlo⟩ := hp
            rw [hsame c' hc'] at hlo
            exact absurd hlo howed
        | delivered => rfl

/-- **Listeners hear of every value that leaves, once, and of nothing else.** In every reachable
state, each value that was stored once is in the tables, in a batch that is still being delivered,
or in a batch that every listener has heard of once; what leaves does so for the reason that is
reported; and once nothing is in progress, everything that has left has been delivered. -/
theorem listeners_hear_everything (h : Reachable listeners limit s) : s.Accounted listeners := by
  have hs := h.sound
  refine ⟨fun o once => hs.existsUnique_place once, hs.count_inserted,
    fun l hl => hs.collected_perm hl, fun l c hc => mem_ongoing_of_mem_owed hc, ?_, ?_, ?_⟩
  · intro hidle o once
    obtain ⟨p, hp, -⟩ := hs.existsUnique_place once
    cases p with
    | held => exact .inl hp
    | pending =>
        -- somebody would still have to deliver it
        obtain ⟨c, -, -, l, -, hc⟩ := hp
        obtain ⟨rest, hrest⟩ := mem_ongoing_of_mem_owed hc
        rw [hidle] at hrest
        exact absurd hrest List.not_mem_nil
    | delivered => exact .inr hp
  · intro c hc o ho
    obtain ⟨v, hv, hcv⟩ := List.mem_flatMap.mp hc
    obtain ⟨b, hb, rfl⟩ := List.mem_map.mp hcv
    obtain ⟨earlier, later, hh, hbefore⟩ := hs.chronicle.of_mem hv
    exact ⟨earlier, later, hh, hbefore.dismisses Tables.unique_empty Tables.slot_empty hb ho⟩
  · intro c hc
    obtain ⟨hl, hcoll⟩ := hs.mem_collected_of_told hc
    refine ⟨hl, hcoll, ?_, fun o ho => ⟨?_, fun once hheld => ?_⟩⟩
    · obtain ⟨v, -, hcv⟩ := List.mem_flatMap.mp hcoll
      obtain ⟨b, hb, hbc⟩ := List.mem_map.mp hcv
      cases hbc
      exact Visit.values_ne_nil hb
    · have hin : o ∈ s.collected.flatMap (·.2.values) := List.mem_flatMap.mpr ⟨_, hcoll, ho⟩
      have hcount := hs.count_inserted o
      have := List.count_pos_iff.mpr hin
      exact List.count_pos_iff.mp (by omega)
    · exact hs.not_mem_batch once hheld hcoll ho

/-- An insert replaces the value 70, and the first of two listeners has just been called. -/
theorem listeners_hear_everything_between_calls :
    ∃ s : Usage Nat Nat, Reachable 2 .unbounded s ∧ s.ongoing.length = 1 ∧ s.told.length = 1 ∧
      ∃! p, s.IsAt 2 70 p := by
  have hinsert : Reachable 2 .unbounded _ := leads_alone 2 (start .unbounded) (.insert 7 70)
  have hcall := hinsert.tail (Step.call _ (.insert 7 71))
  have henter := hcall.tail (@Step.enter Nat Nat _ 2 _ (.insert 7 71) _ _ _ [] [] rfl rfl)
  have h : Reachable 2 .unbounded _ := henter.tail (@Step.notify Nat Nat _ 2 _ _ _ _ [] [] rfl)
  exact ⟨_, h, rfl, rfl, (listeners_hear_everything h).place 70 rfl⟩

end Usage

end GenerationalCache
