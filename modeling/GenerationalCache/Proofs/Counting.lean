import GenerationalCache.Proofs.Listeners

/-!
# The counters balance

A cache counts in seven places, words that wrap around. Each counter is the number of some events of
the history, modulo `2 ^ 64`, and one lemma serves them all: a counter that every visit raises by
the number of its own events stands at the number of all of them.

What the counters say of each other follows from what the history says. Every value that was stored
is still in the tables, or it was displaced, dropped by a rotation, or taken out on request; and
these are the three ways in which values get into batches. So once nothing is in progress, the
counters agree with the answers that were given, with the tables, and with what each listener has
been told.
-/

namespace GenerationalCache

variable {K V : Type}

theorem Entry.length_eq_values_add (es : List (Entry V)) :
    es.length = (values es).length + es.countP isPlaceholder := by
  have hresolved : (values es).length = es.countP fun e => e.value.isSome :=
    List.length_filterMap_eq_countP
  rw [hresolved, List.length_eq_countP_add_countP fun e => e.value.isSome]
  congr 1
  refine List.countP_congr fun e _ => ?_
  cases h : e.value <;> simp [isPlaceholder, h]

/-- The values of the batch if it is of this reason. -/
def Batch.valuesUnder (reason : Reason) (b : Batch V) : List V :=
  if b.reason = reason then b.values else []

/-- Every batch is of one of the four reasons. -/
theorem Batch.length_flatMap_values (bs : List (Batch V)) :
    (bs.flatMap values).length =
      (bs.flatMap (valuesUnder .replaced)).length + (bs.flatMap (valuesUnder .capacity)).length +
        (bs.flatMap (valuesUnder .expired)).length +
        (bs.flatMap (valuesUnder .invalidated)).length := by
  induction bs with
  | nil => rfl
  | cons b bs ih =>
      have hb : b.values.length = (b.valuesUnder .replaced).length +
          (b.valuesUnder .capacity).length + (b.valuesUnder .expired).length +
          (b.valuesUnder .invalidated).length := by
        obtain ⟨values, reason⟩ := b
        cases reason <;> simp [valuesUnder]
      simp only [List.flatMap_cons, List.length_append]
      omega

theorem Batch.flatMap_valuesUnder_ofValues (values : List V) (reason reason' : Reason) :
    (ofValues values reason).flatMap (valuesUnder reason') =
      if reason = reason' then values else [] := by
  unfold ofValues
  cases values with
  | nil => simp
  | cons v vs => simp [valuesUnder]

namespace Call

/-- The operation looked a key up, and answered with a value. -/
def isHit : (c : Call K V) → c.Answer → Bool
  | .lookup _, .ok e => !e.isPlaceholder
  | .get _, .ok value => value.isSome
  | _, _ => false

end Call

variable [Ord K]

/-! ## Events of a visit -/

namespace Visit

/-- The visit found a value. -/
def isHit (v : Visit K V) : Bool := v.call.isHit v.answer

/-- The visit looked for a value and found none. -/
def isMiss (v : Visit K V) : Bool := v.call.isLookup && !v.isHit

/-- The values that the rotations of a visit drop. -/
def dropped (v : Visit K V) : List V := v.rotationsMade.flatMap Rotation.victims

/-- The value that an insert displaces. -/
def displaced (v : Visit K V) : List V :=
  match v.call with
  | .insert k x => (v.found.insert k x).1.displaced.toList
  | _ => []

/-- The entries that a removal, of one key or of all, takes out. -/
def takenOut (v : Visit K V) : List (Entry V) :=
  match v.call with
  | .remove k => (v.found.remove k).1.toList
  | .clear => v.found.clear.1
  | _ => []

end Visit

namespace LocalCache

/-- Rotations are counted one by one, with all that they drop. -/
theorem countRotations_eq (counters : Counters) (rotations : List (Rotation V)) :
    countRotations counters rotations =
      { counters with
        rotations := counters.rotations + .ofNat rotations.length
        evictedByRotation :=
          counters.evictedByRotation + .ofNat (rotations.flatMap Rotation.victims).length } := by
  induction rotations generalizing counters with
  | nil => simp [countRotations]
  | cons r rs ih =>
      have hcons : countRotations counters (r :: rs) =
          countRotations (counters.rotated r.victims.length) rs := rfl
      rw [hcons, ih, List.flatMap_cons, List.length_append, List.length_cons]
      simp only [Counters.rotated, UInt64.ofNat_add, UInt64.add_assoc]
      rw [UInt64.add_comm 1]
      rfl

theorem counters_insert (c : LocalCache K V) (k : K) (x : V) :
    (c.insert k x).2.counters =
      { c.counters with
        inserts := c.counters.inserts + 1
        replacements := c.counters.replacements + .ofNat (c.insert k x).1.displaced.toList.length
        rotations := c.counters.rotations + .ofNat (c.insert k x).1.rotations.length
        evictedByRotation := c.counters.evictedByRotation +
          .ofNat ((c.insert k x).1.rotations.flatMap Rotation.victims).length } := by
  have hcounters : (c.insert k x).2.counters =
      if (c.insert k x).1.displaced.isSome
      then (countRotations c.counters (c.insert k x).1.rotations).stored.displaced
      else (countRotations c.counters (c.insert k x).1.rotations).stored := rfl
  rw [hcounters, countRotations_eq]
  cases (c.insert k x).1.displaced with
  | none => simp [Counters.stored]
  | some o => simp [Counters.stored, Counters.displaced]

end LocalCache

namespace Visit

/-- **A visit raises every counter by the number of its own events.** -/
theorem counters_left (v : Visit K V) :
    v.left.counters =
      { hits := v.found.counters.hits + .ofNat v.isHit.toNat
        misses := v.found.counters.misses + .ofNat v.isMiss.toNat
        inserts := v.found.counters.inserts + .ofNat v.call.isInsert.toNat
        replacements := v.found.counters.replacements + .ofNat v.displaced.length
        invalidations := v.found.counters.invalidations + .ofNat v.takenOut.length
        rotations := v.found.counters.rotations + .ofNat v.rotations
        evictedByRotation := v.found.counters.evictedByRotation + .ofNat v.dropped.length } := by
  obtain ⟨call, c⟩ := v
  cases call with
  | lookup k | get k =>
      have hcounters : (c.lookup k).2.counters =
          c.counters.lookedUp (c.lookup k).1.value.isSome := rfl
      simp only [left, hcounters, isMiss, isHit, answer, Call.isHit, Entry.isPlaceholder]
      cases (c.lookup k).1.value <;>
        simp [Counters.lookedUp, Call.isLookup, Call.isInsert, displaced, takenOut, rotations,
          dropped, rotationsMade]
  | insert k x =>
      simp [left, c.counters_insert, isMiss, isHit, Call.isHit, Call.isLookup, Call.isInsert,
        displaced, takenOut, rotations, dropped, rotationsMade]
  | remove k =>
      have hcounters : (c.remove k).2.counters =
          if (c.remove k).1.isSome then c.counters.invalidated 1 else c.counters := rfl
      simp only [left, hcounters, takenOut]
      cases (c.remove k).1 <;>
        simp [Counters.invalidated, isMiss, isHit, Call.isHit, Call.isLookup, Call.isInsert,
          displaced, rotations, dropped, rotationsMade]
  | clear =>
      simp [left, LocalCache.clear, Counters.invalidated, isMiss, isHit, Call.isHit,
        Call.isLookup, Call.isInsert, displaced, takenOut, rotations, dropped, rotationsMade]
  | evictStale =>
      simp [left, LocalCache.rotate, Counters.rotated, isMiss, isHit, Call.isHit, Call.isLookup,
        Call.isInsert, displaced, takenOut, rotations, dropped, rotationsMade]
  | evictionRequired =>
      simp [left, isMiss, isHit, Call.isHit, Call.isLookup, Call.isInsert, displaced, takenOut,
        rotations, dropped, rotationsMade]

/-! What a visit reports, by reason. -/

theorem flatMap_valuesUnder_replaced (v : Visit K V) :
    v.batches.flatMap (Batch.valuesUnder .replaced) = v.displaced := by
  obtain ⟨call, c⟩ := v
  cases call <;>
    simp [batches, displaced, Insertion.batches, Rotation.batches, List.flatMap_append,
      List.flatMap_assoc, Batch.flatMap_valuesUnder_ofValues]

theorem flatMap_valuesUnder_rotated (v : Visit K V) :
    v.batches.flatMap (Batch.valuesUnder .capacity) ++
      v.batches.flatMap (Batch.valuesUnder .expired) = v.dropped := by
  obtain ⟨call, c⟩ := v
  cases call <;>
    simp [batches, dropped, rotationsMade, Insertion.batches, Rotation.batches,
      List.flatMap_append, List.flatMap_assoc, Batch.flatMap_valuesUnder_ofValues]

theorem flatMap_valuesUnder_invalidated (v : Visit K V) :
    v.batches.flatMap (Batch.valuesUnder .invalidated) = Entry.values v.takenOut := by
  obtain ⟨call, c⟩ := v
  cases call with
  | remove k =>
      simp only [batches, takenOut, Batch.flatMap_valuesUnder_ofValues, if_true]
      cases (c.remove k).1 with
      | none => rfl
      | some e => exact ((Entry.values_cons e []).trans (List.append_nil _)).symm
  | _ =>
      simp [batches, takenOut, Insertion.batches, Rotation.batches, List.flatMap_append,
        List.flatMap_assoc, Batch.flatMap_valuesUnder_ofValues, Entry.values]

theorem countP_replaced (v : Visit K V) :
    v.batches.countP (·.reason = .replaced) = v.displaced.length := by
  obtain ⟨call, c⟩ := v
  have hof : ∀ (values : List V) {reason : Reason}, reason ≠ .replaced →
      (Batch.ofValues values reason).countP (·.reason = .replaced) = 0 := by
    intro values reason hne
    refine List.countP_eq_zero.mpr fun b hb => ?_
    obtain ⟨-, rfl⟩ := Batch.mem_ofValues.mp hb
    simpa using hne
  cases call with
  | lookup k | get k | evictionRequired => rfl
  | insert k x =>
      have hrotations : ((c.insert k x).1.rotations.flatMap (·.batches .capacity)).countP
          (·.reason = .replaced) = 0 := by
        refine List.countP_eq_zero.mpr fun b hb => ?_
        obtain ⟨r, -, hr⟩ := List.mem_flatMap.mp hb
        obtain ⟨-, rfl⟩ := Batch.mem_ofValues.mp hr
        simp
      simp only [batches, displaced, Insertion.batches, List.countP_append, hrotations,
        Nat.zero_add]
      cases (c.insert k x).1.displaced <;> rfl
  | remove k | clear => exact hof _ (by decide)
  | evictStale => exact hof _ (by decide)

theorem isLookup_toNat (v : Visit K V) :
    v.call.isLookup.toNat = v.isHit.toNat + v.isMiss.toNat := by
  obtain ⟨call, c⟩ := v
  cases call with
  | lookup k => cases h : isHit ⟨.lookup k, c⟩ <;> simp [isMiss, h, Call.isLookup]
  | get k => cases h : isHit ⟨.get k, c⟩ <;> simp [isMiss, h, Call.isLookup]
  | _ => rfl

end Visit

/-! ## Counters and the history -/

theorem countP_concat {α : Type*} (p : α → Bool) (l : List α) (a : α) :
    (l ++ [a]).countP p = l.countP p + (p a).toNat := by
  rw [List.countP_append, List.countP_singleton]
  cases p a <;> rfl

theorem countP_isLookup (h : List (Visit K V)) :
    h.countP (·.call.isLookup) = h.countP Visit.isHit + h.countP Visit.isMiss := by
  induction h using List.reverseRecOn with
  | nil => rfl
  | append_singleton h v ih =>
      have := v.isLookup_toNat
      rw [countP_concat, countP_concat, countP_concat]
      omega

theorem rotationsIn_eq (h : List (Visit K V)) :
    rotationsIn h = h.countP (·.call.isSweep) + rotationsIn (h.filter (·.call.isInsert)) := by
  induction h with
  | nil => rfl
  | cons v h ih =>
      obtain ⟨call, c⟩ := v
      rw [rotationsIn, ih, List.countP_cons, List.filter_cons]
      cases call <;> simp [Call.isSweep, Call.isInsert, rotationsIn, Visit.rotations] <;> omega

namespace Chronicle

variable {a c : LocalCache K V} {h : List (Visit K V)}

/-- **The counters stand at the numbers of the events of the history.** -/
theorem counters_eq (hc : Chronicle a h c) (ha : a.counters = {}) :
    c.counters =
      { hits := .ofNat (h.countP Visit.isHit)
        misses := .ofNat (h.countP Visit.isMiss)
        inserts := .ofNat (h.countP (·.call.isInsert))
        replacements := .ofNat (h.flatMap Visit.displaced).length
        invalidations := .ofNat (h.flatMap Visit.takenOut).length
        rotations := .ofNat (rotationsIn h)
        evictedByRotation := .ofNat (h.flatMap Visit.dropped).length } := by
  induction hc with
  | nil => exact ha
  | @snoc h v hv ih =>
      rw [v.counters_left, ih]
      simp only [countP_concat, List.flatMap_append, List.flatMap_singleton, List.length_append,
        rotationsIn_append, rotationsIn_singleton, UInt64.ofNat_add]

theorem flatMap_collected (h : List (Visit K V)) (reason : Reason) :
    (h.flatMap Visit.collected).flatMap (·.2.valuesUnder reason) =
      h.flatMap fun v => v.batches.flatMap (Batch.valuesUnder reason) := by
  rw [List.flatMap_assoc]
  refine List.flatMap_congr fun v _ => ?_
  rw [Visit.collected, List.flatMap_map]

theorem length_displaced (h : List (Visit K V)) :
    ((h.flatMap Visit.collected).flatMap (·.2.valuesUnder .replaced)).length =
      (h.flatMap Visit.displaced).length := by
  rw [flatMap_collected]
  simp only [Visit.flatMap_valuesUnder_replaced]

theorem length_dropped (h : List (Visit K V)) :
    ((h.flatMap Visit.collected).flatMap (·.2.valuesUnder .capacity)).length +
      ((h.flatMap Visit.collected).flatMap (·.2.valuesUnder .expired)).length =
        (h.flatMap Visit.dropped).length := by
  rw [flatMap_collected, flatMap_collected]
  induction h with
  | nil => rfl
  | cons v h ih =>
      have hv := congrArg List.length v.flatMap_valuesUnder_rotated
      rw [List.length_append] at hv
      simp only [List.flatMap_cons, List.length_append]
      omega

theorem length_takenOut (h : List (Visit K V)) :
    ((h.flatMap Visit.collected).flatMap (·.2.valuesUnder .invalidated)).length =
      (Entry.values (h.flatMap Visit.takenOut)).length := by
  rw [flatMap_collected, Entry.values, List.filterMap_flatMap]
  simp only [Visit.flatMap_valuesUnder_invalidated, Entry.values]

theorem countP_replaced (h : List (Visit K V)) :
    (h.flatMap Visit.collected).countP (·.2.reason = .replaced) =
      (h.flatMap Visit.displaced).length := by
  rw [List.countP_flatMap, List.length_flatMap]
  congr 1
  refine List.map_congr_left fun v _ => ?_
  rw [Function.comp_apply, Visit.collected, List.countP_map]
  exact v.countP_replaced

variable [Std.TransOrd K] [Std.LawfulEqOrd K]

/-- **Every value that was stored is accounted for**: displaced, dropped, taken out, or still
there. -/
theorem conserved (hc : Chronicle a h c) (hu : a.tables.Unique) (hempty : a.tables.resident = []) :
    h.countP (·.call.isInsert) =
      (h.flatMap Visit.displaced).length + (h.flatMap Visit.dropped).length +
        (Entry.values (h.flatMap Visit.takenOut)).length + c.tables.resident.length := by
  have hbalance := (hc.balance hu).length_eq
  have hstored : (h.filterMap (·.call.stored?)).length = h.countP (·.call.isInsert) := by
    rw [List.length_filterMap_eq_countP]
    refine List.countP_congr fun v _ => ?_
    cases v.call <;> simp [Call.stored?, Call.isInsert]
  have hbatches : ((h.flatMap Visit.collected).flatMap (·.2.values)).length =
      ((h.flatMap Visit.collected).flatMap (·.2.valuesUnder .replaced)).length +
        ((h.flatMap Visit.collected).flatMap (·.2.valuesUnder .capacity)).length +
        ((h.flatMap Visit.collected).flatMap (·.2.valuesUnder .expired)).length +
        ((h.flatMap Visit.collected).flatMap (·.2.valuesUnder .invalidated)).length := by
    have hsnd := Batch.length_flatMap_values ((h.flatMap Visit.collected).map Prod.snd)
    simpa only [List.flatMap_map] using hsnd
  have hdropped := length_dropped h
  rw [hempty, List.append_nil, hstored, List.length_append, hbatches, length_displaced,
    length_takenOut] at hbalance
  omega

end Chronicle

/-! ## In use -/

namespace Usage

/-- The entries that removals have taken out. -/
def takenOut (s : Usage K V) : List (Entry V) := s.history.flatMap Visit.takenOut

/-- The values of which a listener has been told under one reason. -/
def heardUnder (s : Usage K V) (l : Nat) (reason : Reason) : List V :=
  (s.heard l).flatMap (·.2.valuesUnder reason)

/-- The counters agree with the answers that were given, with the tables and with what the
listeners were told, all counts modulo `2 ^ 64`. -/
structure Balanced (listeners : Nat) (s : Usage K V) : Prop where
  /-- Every lookup is a hit or a miss. -/
  lookups : s.cache.counters.hits + s.cache.counters.misses =
    .ofNat (s.answered.countP fun a => a.1.call.isLookup)
  /-- The hits are the lookups that were answered with a value. -/
  hits : s.cache.counters.hits = .ofNat (s.answered.countP fun a => a.1.call.isHit a.2)
  /-- What was stored was stored by inserts, one value each. -/
  inserts : s.cache.counters.inserts = .ofNat (s.answered.countP fun a => a.1.call.isInsert)
  /-- What was stored was displaced, dropped or taken out, or it is still there. -/
  conserved : s.cache.counters.inserts =
    s.cache.counters.replacements + s.cache.counters.evictedByRotation +
      .ofNat (Entry.values s.takenOut).length +
      .ofNat (Entry.values s.cache.tables.entries).length
  /-- Placeholders that are taken out are counted, too. -/
  invalidations : s.cache.counters.invalidations =
    .ofNat (Entry.values s.takenOut).length + .ofNat (s.takenOut.countP Entry.isPlaceholder)
  /-- Rotations are sweeps, or made by inserts. -/
  rotations : s.cache.counters.rotations =
    .ofNat (s.answered.countP fun a => a.1.call.isSweep) +
      .ofNat (rotationsIn (s.history.filter (·.call.isInsert)))
  /-- Every listener was called once for each value that another has displaced. -/
  heardReplaced : ∀ l < listeners,
    .ofNat ((s.heard l).countP (·.2.reason = .replaced)) = s.cache.counters.replacements
  /-- It was told of each value that a rotation dropped, for want of room or of time. -/
  heardDropped : ∀ l < listeners,
    .ofNat ((s.heardUnder l .capacity).length + (s.heardUnder l .expired).length) =
      s.cache.counters.evictedByRotation
  /-- And of each value that was removed. -/
  heardInvalidated : ∀ l < listeners,
    (s.heardUnder l .invalidated).length = (Entry.values s.takenOut).length

/-- When nothing is in progress, every visit has been answered. -/
theorem Reachable.countP_history {listeners : Nat} {limit : EntryLimit} {s : Usage K V}
    (h : Reachable listeners limit s) (idle : s.ongoing = []) (p : Visit K V → Bool) :
    s.history.countP p = s.answered.countP fun a => p a.1 := by
  have hperm := h.history_perm
  rw [idle] at hperm
  exact (hperm.countP_eq p).trans List.countP_map

variable [Std.TransOrd K] [Std.LawfulEqOrd K]

/-- **The counters balance.** In every reachable state in which no operation is in progress, each
counter is the number of the events it counts, they account for every value that was stored, and
they agree with what each listener has been told. -/
theorem counters_balance {listeners : Nat} {limit : EntryLimit} {s : Usage K V}
    (h : Reachable listeners limit s) (idle : s.ongoing = []) : s.Balanced listeners := by
  have hc := h.sound.chronicle
  have hcounters := hc.counters_eq rfl
  have hinserts : s.cache.counters.inserts = .ofNat (s.history.countP (·.call.isInsert)) :=
    congrArg Counters.inserts hcounters
  have hreplacements : s.cache.counters.replacements =
      .ofNat (s.history.flatMap Visit.displaced).length := congrArg Counters.replacements hcounters
  have hevicted : s.cache.counters.evictedByRotation =
      .ofNat (s.history.flatMap Visit.dropped).length :=
    congrArg Counters.evictedByRotation hcounters
  have hcount := h.countP_history idle
  have hheard : ∀ l < listeners, s.collected.Perm (s.heard l) := by
    intro l hl
    have howed : s.owed l = [] := by rw [owed, outstanding, idle]; rfl
    have hperm := h.sound.collected_perm hl
    rwa [howed, List.nil_append] at hperm
  have hunder : ∀ l < listeners, ∀ reason,
      (s.heardUnder l reason).length = (s.collected.flatMap (·.2.valuesUnder reason)).length :=
    fun l hl reason => ((hheard l hl).flatMap_right _).length_eq.symm
  refine ⟨?_, ?_, ?_, ?_, ?_, ?_, ?_, ?_, ?_⟩
  · have hsum : s.cache.counters.hits + s.cache.counters.misses =
        .ofNat (s.history.countP Visit.isHit) + .ofNat (s.history.countP Visit.isMiss) :=
      congrArg (fun c : Counters => c.hits + c.misses) hcounters
    rw [hsum, ← UInt64.ofNat_add, ← countP_isLookup, hcount]
  · have hhits : s.cache.counters.hits = .ofNat (s.history.countP Visit.isHit) :=
      congrArg Counters.hits hcounters
    rw [hhits, hcount]
    refine congrArg UInt64.ofNat (List.countP_congr fun a ha => ?_)
    rw [(h.sound.answered a ha).2]
    rfl
  · rw [hinserts, hcount]
  · rw [hinserts, hreplacements, hevicted, hc.conserved Tables.unique_empty rfl]
    simp only [UInt64.ofNat_add]
    rfl
  · have hinvalidations : s.cache.counters.invalidations = .ofNat s.takenOut.length :=
      congrArg Counters.invalidations hcounters
    rw [hinvalidations, ← UInt64.ofNat_add, ← Entry.length_eq_values_add]
  · have hrotations : s.cache.counters.rotations = .ofNat (rotationsIn s.history) :=
      congrArg Counters.rotations hcounters
    rw [hrotations, rotationsIn_eq, UInt64.ofNat_add, hcount]
  · intro l hl
    rw [hreplacements, ← Chronicle.countP_replaced, (hheard l hl).symm.countP_eq]
    rfl
  · intro l hl
    rw [hevicted, hunder l hl, hunder l hl, collected, Chronicle.length_dropped]
  · intro l hl
    rw [hunder l hl, collected, Chronicle.length_takenOut]
    rfl

/-- Of three values one is displaced, one is dropped to make room, and one is removed. -/
theorem counters_balance_three_ways :
    ∃ s : Usage Nat String, Reachable 1 (.ofSize 1) s ∧ s.ongoing = [] ∧
      s.cache.counters.inserts = 3 ∧ s.cache.counters.replacements = 1 ∧
      s.cache.counters.evictedByRotation = 1 ∧ s.cache.counters.rotations = 3 ∧
      s.cache.counters.invalidations = 1 ∧ s.Balanced 1 := by
  have h : Reachable 1 (.ofSize 1) _ :=
    (((leads_alone 1 (start (.ofSize 1)) (.insert 7 "seven")).trans
      (leads_alone 1 _ (.insert 7 "seven again"))).trans
      ((leads_alone 1 _ (.get 8)).trans (leads_alone 1 _ (.insert 9 "nine")))).trans
      (leads_alone 1 _ (.remove 9))
  exact ⟨_, h, rfl, by decide, by decide, by decide, by decide, by decide, counters_balance h rfl⟩

end Usage

end GenerationalCache
