import GenerationalCache.Proofs.Agreement

/-!
# Removing keys one after the other

Whether a cache keeps its own entries or leaves them to a provider, what it has under a key is one
of three things: nothing, something without a value, or a value. A placeholder is something without
a value, and so are bytes that cannot be read. Getting, storing and removing do the same to these
contents in both kinds of caches, and nothing else about a cache matters for the removal of a list
of keys: keys that come twice in the list are there only the first time, so the number of removed
keys is the number of different ones that were there.
-/

namespace GenerationalCache

variable {σ K V α : Type}

namespace World

variable {p : Provider K} {serializer : Serializer V} {listeners : Nat}

/-! ## What was told before does not matter -/

theorem act_told {β : Type} (action : Action σ K V β) (w : World p σ V) (t : List (Delivery V)) :
    act serializer listeners action { w with told := t ++ w.told } =
      ((act serializer listeners action w).1,
        { (act serializer listeners action w).2 with
          told := t ++ (act serializer listeners action w).2.told }) := by
  cases action <;> simp [act, report, List.append_assoc]

theorem run_told (q : Program σ K V α) (w : World p σ V) (t : List (Delivery V)) :
    q.run (act serializer listeners) { w with told := t ++ w.told } =
      ((q.run (act serializer listeners) w).1,
        { (q.run (act serializer listeners) w).2 with
          told := t ++ (q.run (act serializer listeners) w).2.told }) := by
  induction q generalizing w with
  | done a => rfl
  | step action next ih =>
      rw [Program.run, Program.run, act_told]
      exact ih _ _

/-- An operation is performed in the same way in the middle of others. -/
theorem run_program {ops : Operations σ K V} {c : Call K V} {w w' : World p σ V} {a : c.Answer}
    (h : w.perform serializer listeners ops c = (a, w')) :
    (ops.program c).run (act serializer listeners) w =
      (a, { w' with told := w.told ++ w'.told }) := by
  have hrun : (ops.program c).run (act serializer listeners) { w with told := w.told ++ [] } = _ :=
    run_told (ops.program c) { w with told := [] } w.told
  rw [List.append_nil, show (ops.program c).run _ _ = (a, w') from h] at hrun
  exact hrun

end World

/-! ## What a cache has under its keys -/

/-- A reading of what a cache has under each key, to which its operations keep. -/
structure Contents (p : Provider K) (serializer : Serializer V) (listeners : Nat)
    (ops : Operations σ K V) (accepts : V → Prop) where
  /-- The worlds in which the cache can be. -/
  Sound : World p σ V → Prop
  /-- Nothing, something without a value, or a value. -/
  found? : World p σ V → K → Option (Option V)
  /-- Whoever was told what, the world is one of them. -/
  sound_told : ∀ {w}, Sound w → ∀ t, Sound { w with told := t }
  /-- Nor does it matter for what is under a key. -/
  found?_told : ∀ w t k, found? { w with told := t } k = found? w k
  /-- A lookup finds the value, and changes at most what was nothing. -/
  get : ∀ {w}, Sound w → ∀ k, ∃ w', w.perform serializer listeners ops (.get k) =
      (.ok (found? w k).join, w') ∧ Sound w' ∧
    ((found? w k).isSome → ∀ k', found? w' k' = found? w k')
  /-- A store puts the value there. -/
  insert : ∀ {w}, Sound w → ∀ k {x}, accepts x → ∃ w', w.perform serializer listeners ops
      (.insert k x) = (.ok (), w') ∧ Sound w' ∧
    found? w' k = some (some x) ∧ ∀ k', k' ≠ k → found? w' k' = found? w k'
  /-- A removal takes out what is there, and tells whether anything was. -/
  remove : ∀ {w}, Sound w → ∀ k, ∃ w', w.perform serializer listeners ops (.remove k) =
      (.ok (found? w k).isSome, w') ∧ Sound w' ∧
    found? w' k = none ∧ ∀ k', k' ≠ k → found? w' k' = found? w k'

/-! ## Removing a list of keys -/

/-- One key more counts if it is there, and then it is not there any more for the others. -/
theorem ncard_there_cons {k : K} {ks : List K} {f g : K → Bool} (hk : g k = false)
    (hother : ∀ x, x ≠ k → g x = f x) :
    {x | x ∈ k :: ks ∧ f x}.ncard = (if f k then 1 else 0) + {x | x ∈ ks ∧ g x}.ncard := by
  have hfinite : {x | x ∈ ks ∧ g x}.Finite := (List.finite_toSet ks).subset fun x hx => hx.1
  split
  · next hf =>
    have hset : {x | x ∈ k :: ks ∧ f x} = insert k {x | x ∈ ks ∧ g x} := by
      ext x
      by_cases hx : x = k
      · simp [hx, hf]
      · simp [hx, hother x hx]
    rw [hset, Set.ncard_insert_of_notMem (by simp [hk]) hfinite, Nat.add_comm]
  · next hf =>
    have hset : {x | x ∈ k :: ks ∧ f x} = {x | x ∈ ks ∧ g x} := by
      ext x
      by_cases hx : x = k
      · simp [hx, hf, hk]
      · simp [hx, hother x hx]
    rw [hset, Nat.zero_add]

namespace Contents

variable {p : Provider K} {serializer : Serializer V} {listeners : Nat} {ops : Operations σ K V}
  {accepts : V → Prop} {w : World p σ V}

/-- A list of keys is removed, whatever repeats it has. -/
theorem run_removeCounting (c : Contents p serializer listeners ops accepts) (hw : c.Sound w)
    (ks : List K) (count : Nat) :
    ∃ w', (ops.removeCounting ks count).run (World.act serializer listeners) w =
        (.ok (count + {k | k ∈ ks ∧ (c.found? w k).isSome}.ncard), w') ∧ c.Sound w' ∧
      (∀ k ∈ ks, c.found? w' k = none) ∧ ∀ k, k ∉ ks → c.found? w' k = c.found? w k := by
  induction ks generalizing w count with
  | nil => exact ⟨w, by simp [Operations.removeCounting, Program.run], hw, by simp, by simp⟩
  | cons k ks ih =>
      obtain ⟨w₁, hremove, hw₁, hgone, hother⟩ := c.remove hw k
      -- the rest of the list finds a cache in which the key is no longer there
      obtain ⟨w₂, hrest, hw₂, hgone₂, hother₂⟩ := ih (c.sound_told hw₁ (w.told ++ w₁.told))
        (if (c.found? w k).isSome then count + 1 else count)
      simp only [c.found?_told] at hrest hother₂
      refine ⟨w₂, ?_, hw₂, fun k' hk' => ?_, fun k' hk' => ?_⟩
      · have hcount : {x | x ∈ k :: ks ∧ (c.found? w x).isSome}.ncard =
            (if (c.found? w k).isSome then 1 else 0) +
              {x | x ∈ ks ∧ (c.found? w₁ x).isSome}.ncard :=
          ncard_there_cons (congrArg Option.isSome hgone)
            fun x hx => congrArg Option.isSome (hother x hx)
        refine (Program.run_bind ..).trans ?_
        rw [show (ops.remove k).run _ w = _ from World.run_program hremove]
        refine hrest.trans ?_
        rw [hcount]
        cases (c.found? w k).isSome <;> simp [Nat.add_assoc]
      · by_cases hks : k' ∈ ks
        · exact hgone₂ k' hks
        · obtain rfl : k' = k := (List.mem_cons.mp hk').resolve_right hks
          rw [hother₂ k' hks, hgone]
      · obtain ⟨hne, hks⟩ := not_or.mp (mt List.mem_cons.mpr hk')
        rw [hother₂ k' hks, hother k' hne]

/-- A cache that leaves its entries to the provider has there what the provider has. -/
def far (p : Provider K) (serializer : Serializer V) (listeners : Nat) :
    Contents p serializer listeners (Connection.operations serializer listeners)
      serializer.Keeps where
  Sound w := w.Connected
  found? w k := (p.held w.store k).map fun bytes => (serializer.decode (some bytes)).1
  sound_told h _ := h
  found?_told _ _ _ := rfl
  get {w} h k := by
    refine ⟨(w.lookedUp serializer k).2, (World.perform_get h k).trans ?_, .inr ⟨rfl, rfl⟩,
      fun _ _ => rfl⟩
    cases hheld : p.held w.store k <;>
      simp [World.lookedUp, Connection.makeEntry, hheld, Serializer.decode]
  insert {w} h k x hx := by
    obtain ⟨bytes, hwrite, hread⟩ := hx
    refine ⟨_, World.perform_insert h k hwrite, .inr ⟨rfl, rfl⟩, ?_, fun k' hk' => ?_⟩
    · simp [p.held_put, Serializer.decode, hread]
    · simp [p.held_put_of_ne _ _ hk']
  remove {w} h k := by
    rw [Option.isSome_map]
    refine ⟨_, World.perform_remove h k, .inr ⟨rfl, rfl⟩, ?_, fun k' hk' => ?_⟩
    · simp [p.held_remove]
    · simp [p.held_remove_of_ne _ hk']

end Contents

variable [Ord K] [Std.TransOrd K] [Std.LawfulEqOrd K]

/-- What an operation that sweeps nothing does to the entry of a key. -/
theorem Visit.find?_left {v : Visit K V} (h : v.found.tables.Unique) (hr : v.rotations = 0)
    (k : K) :
    (∀ x, v.call = .insert k x → (v.left.tables.find? k).map Entry.value = some (some x)) ∧
    (v.call.Discards k → v.left.tables.find? k = none) ∧
    (¬ v.call.Stores k → ¬ v.call.Discards k →
      (v.call.LooksUp k → (v.found.tables.find? k).isSome) →
      v.left.tables.find? k = v.found.tables.find? k) := by
  rw [Tables.find?_eq v.left.tables]
  cases effect h k with
  | lookedUp hl hs =>
      rw [hs]
      refine ⟨fun x hx => ?_, fun hd => absurd (.inl hl) hd.not_touches, fun _ _ hthere => ?_⟩
      · rw [hx] at hl
        exact hl.elim
      · obtain ⟨e, he⟩ := Option.isSome_iff_exists.mp (hthere hl)
        rw [he]
        rfl
  | stored x hi hs =>
      rw [hs, hi]
      refine ⟨fun y hy => ?_, False.elim, fun hn => absurd rfl hn⟩
      cases hy
      rfl
  | discarded hd hs =>
      rw [hs]
      refine ⟨fun x hx => ?_, fun _ => rfl, fun _ hn => absurd hd hn⟩
      rw [hx] at hd
      exact hd.elim
  | quiet ht hd hs =>
      -- nothing is swept, so the entry is where it was
      rw [hs, hr, Tables.aged_zero, ← Tables.find?_eq]
      refine ⟨fun x hx => ?_, fun h => absurd h hd, fun _ _ _ => rfl⟩
      rw [hx] at ht
      exact absurd (.inr rfl) ht

/-- A cache that keeps its own entries, and any number of them, has its entries. -/
def Contents.near (p : Provider K) (serializer : Serializer V) (listeners : Nat) :
    Contents p serializer listeners (LocalCache.operations listeners) fun _ => True where
  Sound w := w.cache.limit = .unbounded ∧ w.cache.tables.Unique
  found? w k := (w.cache.tables.find? k).map Entry.value
  sound_told h _ := h
  found?_told _ _ _ := rfl
  get {w} h k := by
    let v : Visit K V := ⟨.get k, w.cache⟩
    have hvalue : (w.cache.lookup k).1.value = ((w.cache.tables.find? k).map Entry.value).join := by
      rw [w.cache.value_lookup k]
      cases w.cache.tables.find? k <;> rfl
    rw [← hvalue]
    refine ⟨{ w with cache := v.left, told := _ }, World.perform_local (.get k) w,
      ⟨v.limit_left.trans h.1, v.unique_left h.2⟩, fun hthere k' => ?_⟩
    obtain ⟨-, -, hkept⟩ := v.find?_left h.2 rfl k'
    refine congrArg (Option.map Entry.value) (hkept id id ?_)
    rintro rfl
    rwa [Option.isSome_map] at hthere
  insert {w} h k x _ := by
    let v : Visit K V := ⟨.insert k x, w.cache⟩
    have hr : v.rotations = 0 := v.rotations_of_unbounded h.1 nofun
    refine ⟨{ w with cache := v.left, told := _ }, World.perform_local (.insert k x) w,
      ⟨v.limit_left.trans h.1, v.unique_left h.2⟩, ?_, fun k' hk' => ?_⟩
    · exact (v.find?_left h.2 hr k).1 x rfl
    · obtain ⟨-, -, hkept⟩ := v.find?_left h.2 hr k'
      exact congrArg (Option.map Entry.value) (hkept (Ne.symm hk') id False.elim)
  remove {w} h k := by
    let v : Visit K V := ⟨.remove k, w.cache⟩
    have hremoved : (w.cache.remove k).1 = w.cache.tables.find? k := Tables.remove_fst _ k
    rw [Option.isSome_map, ← hremoved]
    refine ⟨{ w with cache := v.left, told := _ }, World.perform_local (.remove k) w,
      ⟨v.limit_left.trans h.1, v.unique_left h.2⟩, ?_, fun k' hk' => ?_⟩
    · obtain ⟨-, hgone, -⟩ := v.find?_left h.2 rfl k
      exact congrArg (Option.map Entry.value) (hgone rfl)
    · obtain ⟨-, -, hkept⟩ := v.find?_left h.2 rfl k'
      exact congrArg (Option.map Entry.value) (hkept id (Ne.symm hk') False.elim)

end GenerationalCache
