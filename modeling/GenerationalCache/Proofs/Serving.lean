import GenerationalCache.Proofs.Usage

/-!
# What a lookup serves

What a cache answers for a key is settled by the history alone: it serves the value of the last
insert of the key, as long as the key was not removed since and was never left untouched for more
than two rotations. Rotations count whoever performed them, a sweep or an insert of any other key
that had to make room.

One direction follows the entry from its insert on. Its age is the number of rotations since the
last touch, and those visits are one of the stretches that the history keeps short, so the entry is
never dropped. The other direction finds the insert behind an entry that is there. What carries the
induction is that the age of the entry bounds the rotations of every stretch that reaches up to the
present: a touch ends all such stretches and makes the age zero, and anything else adds the same to
both.
-/

namespace GenerationalCache

variable {K V : Type} [Ord K]

/-- A key that was stored just before these visits is still served after them. -/
structure Lives (k : K) (later : List (Visit K V)) : Prop where
  /-- It is not stored again. -/
  last : ∀ w ∈ later, ¬ w.call.Stores k
  /-- It is not removed. -/
  kept : ∀ w ∈ later, ¬ w.call.Discards k
  /-- No stretch of visits that do not touch it has more than two rotations. -/
  fresh : ∀ stretch, stretch <:+: later → (∀ w ∈ stretch, ¬ w.call.Touches k) →
    rotationsIn stretch ≤ 2

/-- The last insert of the key stored this value, and the key has been kept alive since. -/
def Serves (k : K) (x : V) (h : List (Visit K V)) : Prop :=
  ∃ earlier found later, h = earlier ++ ⟨.insert k x, found⟩ :: later ∧ Lives k later

namespace Lives

variable {k : K} {later : List (Visit K V)} {v : Visit K V}

theorem nil : Lives k ([] : List (Visit K V)) where
  last := by simp
  kept := by simp
  fresh := by
    intro stretch hs _
    rw [List.infix_nil.mp hs]
    exact Nat.zero_le _

/-- Fewer visits are less of a danger. -/
theorem of_snoc (h : Lives k (later ++ [v])) : Lives k later where
  last w hw := h.last w (List.mem_append_left _ hw)
  kept w hw := h.kept w (List.mem_append_left _ hw)
  fresh stretch hs := h.fresh stretch (List.infix_concat_iff.mpr (.inr hs))

/-- One more visit does no harm if it neither stores nor removes the key and does not make the
present stretch too long. -/
theorem snoc (h : Lives k later) (hs : ¬ v.call.Stores k) (hd : ¬ v.call.Discards k)
    (hf : ∀ stretch, stretch <:+ later ++ [v] → (∀ w ∈ stretch, ¬ w.call.Touches k) →
      rotationsIn stretch ≤ 2) : Lives k (later ++ [v]) where
  last := List.forall_mem_append.mpr ⟨h.last, List.forall_mem_singleton.mpr hs⟩
  kept := List.forall_mem_append.mpr ⟨h.kept, List.forall_mem_singleton.mpr hd⟩
  fresh stretch hi := by
    rcases List.infix_concat_iff.mp hi with hi | hi
    · exact hf stretch hi
    · exact h.fresh stretch hi

end Lives

/-- The history serves this value, and no stretch up to the present has more than `r` rotations. -/
def ServesAged (k : K) (x : V) (r : Nat) (h : List (Visit K V)) : Prop :=
  ∃ earlier found later, h = earlier ++ ⟨.insert k x, found⟩ :: later ∧ Lives k later ∧
    ∀ stretch, stretch <:+ later → (∀ w ∈ stretch, ¬ w.call.Touches k) → rotationsIn stretch ≤ r

namespace ServesAged

variable {k : K} {x : V} {r : Nat} {h : List (Visit K V)} {v : Visit K V}

theorem serves (hs : ServesAged k x r h) : Serves k x h := by
  obtain ⟨earlier, found, later, hh, alive, -⟩ := hs
  exact ⟨earlier, found, later, hh, alive⟩

/-- Directly after the insert there is no stretch yet. -/
theorem insert (k : K) (x : V) (h : List (Visit K V)) (found : LocalCache K V) :
    ServesAged k x 0 (h ++ [⟨.insert k x, found⟩]) := by
  refine ⟨h, found, [], rfl, .nil, fun stretch hsuffix _ => ?_⟩
  rw [List.suffix_nil.mp hsuffix]
  exact Nat.le_refl 0

/-- A lookup ends every stretch. -/
theorem lookup (hs : ServesAged k x r h) (hl : v.call.LooksUp k) :
    ServesAged k x 0 (h ++ [v]) := by
  obtain ⟨earlier, found, later, rfl, alive, -⟩ := hs
  have hnone : ∀ stretch, stretch <:+ later ++ [v] → (∀ w ∈ stretch, ¬ w.call.Touches k) →
      rotationsIn stretch ≤ 0 := by
    intro stretch hsuffix huntouched
    rcases List.suffix_concat_iff.mp hsuffix with rfl | ⟨t, rfl, -⟩
    · exact Nat.le_refl 0
    · exact absurd (.inl hl) (huntouched v (by simp))
  refine ⟨earlier, found, later ++ [v], by simp, ?_, hnone⟩
  refine alive.snoc hl.not_stores (fun hd => hd.not_touches (.inl hl)) ?_
  intro stretch hsuffix huntouched
  exact Nat.le_trans (hnone stretch hsuffix huntouched) (Nat.zero_le 2)

/-- Any other visit makes the stretches longer by its own rotations. -/
theorem quiet (hs : ServesAged k x r h) (ht : ¬ v.call.Touches k) (hd : ¬ v.call.Discards k)
    (hr : r + v.rotations ≤ 2) : ServesAged k x (r + v.rotations) (h ++ [v]) := by
  obtain ⟨earlier, found, later, rfl, alive, hage⟩ := hs
  have hgrown : ∀ stretch, stretch <:+ later ++ [v] → (∀ w ∈ stretch, ¬ w.call.Touches k) →
      rotationsIn stretch ≤ r + v.rotations := by
    intro stretch hsuffix huntouched
    rcases List.suffix_concat_iff.mp hsuffix with rfl | ⟨t, rfl, htl⟩
    · exact Nat.zero_le _
    · have := hage t htl fun w hw => huntouched w (List.mem_append_left _ hw)
      rw [rotationsIn_append, rotationsIn_singleton]
      omega
  refine ⟨earlier, found, later ++ [v], by simp, ?_, hgrown⟩
  refine alive.snoc (fun hst => ht (.inr hst)) hd ?_
  intro stretch hsuffix huntouched
  exact Nat.le_trans (hgrown stretch hsuffix huntouched) hr

end ServesAged

/-- A lookup answers with the value under its key; on a miss the placeholder has none. -/
theorem LocalCache.value_lookup (c : LocalCache K V) (k : K) :
    (c.lookup k).1.value = (c.tables.find? k).bind Entry.value := by
  have hfst : (c.lookup k).1 = (c.tables.find? k).getD (.placeholder c.nextId) :=
    c.tables.lookup_fst k _
  rw [hfst]
  cases c.tables.find? k <;> rfl

variable [Std.TransOrd K] [Std.LawfulEqOrd K]

namespace Chronicle

variable {a c : LocalCache K V} {h : List (Visit K V)} {k : K} {e : Entry V}

/-- While a key is kept alive its entry stays, as old as the stretch since its last touch. -/
theorem slot_of_lives (hc : Chronicle a h c) (ha : a.tables.Unique)
    (hk : a.tables.slot k = some (.primary, e)) (alive : Lives k h) :
    ∃ g stretch, c.tables.slot k = some (g, e) ∧ stretch <:+ h ∧
      (∀ w ∈ stretch, ¬ w.call.Touches k) ∧ rotationsIn stretch = g.age := by
  induction hc with
  | nil => exact ⟨.primary, [], hk, List.suffix_refl _, by simp, rfl⟩
  | @snoc h v hv ih =>
      obtain ⟨g, stretch, hg, hsuffix, huntouched, hrot⟩ := ih alive.of_snoc
      cases Visit.effect (hv.unique ha) k with
      | lookedUp _ hs =>
          -- a lookup finds the entry, and a new stretch begins
          rw [Tables.find?_eq, hg, Option.map_some, Option.getD_some] at hs
          exact ⟨.primary, [], hs, List.nil_suffix, by simp, rfl⟩
      | stored x hi _ =>
          refine absurd ?_ (alive.last v (by simp))
          rw [hi]
          rfl
      | discarded hd _ => exact absurd hd (alive.kept v (by simp))
      | quiet ht _ hs =>
          -- the stretch goes on, and it is not too long
          have hsuffix' : stretch ++ [v] <:+ h ++ [v] :=
            List.suffix_concat_iff.mpr (.inr ⟨stretch, rfl, hsuffix⟩)
          have huntouched' : ∀ w ∈ stretch ++ [v], ¬ w.call.Touches k :=
            List.forall_mem_append.mpr ⟨huntouched, List.forall_mem_singleton.mpr ht⟩
          have hrot' : rotationsIn (stretch ++ [v]) = g.age + v.rotations := by
            rw [rotationsIn_append, rotationsIn_singleton, hrot]
          have hle := alive.fresh _ hsuffix'.isInfix huntouched'
          cases hage : Generation.ofAge? (g.age + v.rotations) with
          | none =>
              have := Generation.ofAge?_eq_none.mp hage
              omega
          | some g' =>
              rw [← Generation.ofAge?_eq_some.mp hage] at hrot'
              refine ⟨g', stretch ++ [v], ?_, hsuffix', huntouched', hrot'⟩
              rw [hs, hg, Tables.aged, hage, Option.map_some]

/-- Behind an entry with a value there is the last insert of its key, and the entry is at least as
old as every stretch that reaches up to the present. -/
theorem servesAged_of_slot (hc : Chronicle a h c) (ha : a.tables.Unique)
    (hk : a.tables.slot k = none) {g : Generation} {x : V} (hs : c.tables.slot k = some (g, e))
    (hx : e.value = some x) : ServesAged k x g.age h := by
  induction hc generalizing g e with
  | nil =>
      rw [hk] at hs
      cases hs
  | @snoc h v hv ih =>
      cases Visit.effect (hv.unique ha) k with
      | lookedUp hl hs' =>
          -- the entry was there before the lookup, since a placeholder has no value
          rw [hs, Tables.find?_eq] at hs'
          cases hfound : v.found.tables.slot k with
          | none =>
              rw [hfound] at hs'
              cases hs'
              cases hx
          | some p =>
              rw [hfound] at hs'
              cases hs'
              exact (ih hfound hx).lookup hl
      | stored y hi hs' =>
          -- the value of the insert is there, and nothing has happened since
          rw [hs] at hs'
          cases hs'
          cases hx
          obtain ⟨call, found⟩ := v
          cases hi
          exact .insert k x h found
      | discarded _ hs' =>
          rw [hs] at hs'
          cases hs'
      | quiet ht hd hs' =>
          -- the entry and all stretches up to the present grow by the same
          rw [hs] at hs'
          obtain ⟨g', hfound, hage⟩ := Tables.aged_eq_some.mp hs'.symm
          have hle := g.age_le
          rw [hage] at hle ⊢
          exact (ih hfound hx).quiet ht hd hle

/-- **The value under a key is the one that the history serves.** -/
theorem value_eq_some_iff_serves (hc : Chronicle a h c) (ha : a.tables.Unique)
    (hk : a.tables.slot k = none) (x : V) :
    (c.tables.find? k).bind Entry.value = some x ↔ Serves k x h := by
  rw [Tables.find?_eq]
  constructor
  · intro hx
    obtain ⟨e, he, hv⟩ := Option.bind_eq_some_iff.mp hx
    obtain ⟨⟨g, e'⟩, hs, rfl⟩ := Option.map_eq_some_iff.mp he
    exact (hc.servesAged_of_slot ha hk hs hv).serves
  · rintro ⟨earlier, found, later, rfl, alive⟩
    obtain ⟨hbefore, hafter⟩ := hc.split_at
    have hfound := hbefore.unique ha
    have hleft : (Visit.mk (.insert k x) found).left.tables.slot k =
        some (.primary, .resolved found.nextId x) := Tables.slot_insert_self _ _ _
    obtain ⟨g, -, hs, -⟩ := hafter.slot_of_lives (Visit.unique_left hfound) hleft alive
    rw [hs]
    rfl

end Chronicle

namespace Usage

/-- **What a lookup serves is settled by the history.** In every reachable state, getting a key now,
undisturbed, answers with `x` exactly when the last insert of the key stored `x`, the key was not
removed since, and from that insert on no stretch of visits without a touch of the key has more than
two rotations; otherwise it answers with nothing. And so does every get that has run its critical
section, whatever else was going on, by the history before it. -/
theorem get_serves_history {listeners : Nat} {limit : EntryLimit} {s : Usage K V}
    (h : Reachable listeners limit s) (k : K) :
    (∃ s' r, Leads listeners s s' ∧ s'.history = s.history ++ [⟨.get k, s.cache⟩] ∧
      s'.answered = s.answered ++ [⟨⟨.get k, s.cache⟩, .ok r⟩] ∧
      ∀ x, r = some x ↔ Serves k x s.history) ∧
    ∀ earlier found later, s.history = earlier ++ ⟨.get k, found⟩ :: later →
      ∃ r, (∀ answer, ⟨⟨.get k, found⟩, answer⟩ ∈ s.answered → answer = .ok r) ∧
        ∀ x, r = some x ↔ Serves k x earlier := by
  have hserves : ∀ {c : LocalCache K V} {past : List (Visit K V)}, Chronicle { limit } past c →
      ∀ x, (c.lookup k).1.value = some x ↔ Serves k x past := by
    intro c past hc x
    rw [c.value_lookup k]
    exact hc.value_eq_some_iff_serves Tables.unique_empty (Tables.slot_empty k) x
  have hc := h.sound.chronicle
  refine ⟨?_, fun earlier found later hs => ?_⟩
  · exact ⟨_, _, leads_alone listeners s (.get k), rfl, rfl, hserves hc⟩
  · rw [hs] at hc
    refine ⟨(found.lookup k).1.value, fun answer ha => ?_, hserves hc.split_at.1⟩
    exact (h.sound.answered _ ha).2

/-- A value may outlive three sweeps when a lookup comes between them. -/
theorem get_serves_history_touched :
    ∃ (s : Usage Nat String) (earlier : List (Visit Nat String)) (found : LocalCache Nat String),
      Reachable 1 .unbounded s ∧ s.history = earlier ++ [⟨.get 7, found⟩] ∧
      rotationsIn earlier = 3 ∧ Serves 7 "seven" earlier := by
  have h : Reachable 1 .unbounded _ :=
    (((leads_alone 1 (start .unbounded) (.insert 7 "seven")).trans
      ((leads_alone 1 _ .evictStale).trans (leads_alone 1 _ .evictStale))).trans
      ((leads_alone 1 _ (.lookup 7)).trans (leads_alone 1 _ .evictStale))).trans
      (leads_alone 1 _ (.get 7))
  obtain ⟨-, hpast⟩ := get_serves_history h 7
  obtain ⟨r, hanswer, hserves⟩ := hpast _ _ [] rfl
  have hr : Except.ok (some "seven") = Except.ok r :=
    hanswer _ (List.mem_append_right _ (List.mem_singleton.mpr rfl))
  exact ⟨_, _, _, h, rfl, rfl, (hserves "seven").mp (Except.ok.inj hr).symm⟩

end Usage

end GenerationalCache
