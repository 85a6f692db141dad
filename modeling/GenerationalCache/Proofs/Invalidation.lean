import GenerationalCache.Proofs.Contents
import GenerationalCache.Proofs.SelfDelimiting

/-!
# Invalidating a result under all of its keys

An authentication result is stored under several keys, one after the other: each key is added to the
result, and then the result is stored under it. Whoever finds the result under one of them should be
able to invalidate it under all of them.

A cache that keeps its own entries has the same object under each key. Keys that were added later
show in it, and so all of them are reached. A cache that leaves its entries to a provider has bytes,
and they hold the keys that the result had when it was stored. What is found under a key therefore
knows that key and those before it, and the ones after it stay in the cache.
-/

namespace GenerationalCache

variable {σ K V : Type}

namespace AuthResult

/-- The result with more keys. -/
def withLookupKeys (r : AuthResult K) (ks : List K) : AuthResult K :=
  { r with lookupKeys := r.lookupKeys ++ ks }

/-- Adds keys to a result one after the other, and stores under each what stands for the result as
it is then. -/
def cacheUnder (ops : Operations σ K V) (stored : AuthResult K → V) :
    List K → AuthResult K → Program σ K V (Except CacheFailure (AuthResult K))
  | [], r => .done (.ok r)
  | k :: ks, r => do
    match ← ops.insert k (stored (r.addLookupKey k)) with
    | .error failure => return .error failure
    | .ok () => cacheUnder ops stored ks (r.addLookupKey k)

theorem withLookupKeys_nil (r : AuthResult K) : r.withLookupKeys [] = r := by
  simp [withLookupKeys]

theorem withLookupKeys_addLookupKey (r : AuthResult K) (k : K) (ks : List K) :
    (r.addLookupKey k).withLookupKeys ks = r.withLookupKeys (k :: ks) := by
  simp [withLookupKeys, addLookupKey]

end AuthResult

/-- With fewer keys a result fits all the more. -/
theorem Wire.AuthResultFits.of_prefix {fits : K → Prop} {r : AuthResult K} {ks before : List K}
    (h : AuthResultFits fits (r.withLookupKeys ks)) (hbefore : before <+: ks) :
    AuthResultFits fits (r.withLookupKeys before) := by
  obtain ⟨after, rfl⟩ := hbefore
  obtain ⟨hsubject, hlength, hkeys⟩ := h
  simp only [AuthResult.withLookupKeys, List.length_append, ← List.append_assoc] at hlength hkeys
  refine ⟨hsubject, ?_, fun k hk => hkeys k (List.mem_append_left _ hk)⟩
  rw [AuthResult.withLookupKeys, List.length_append]
  omega

namespace Contents

variable {p : Provider K} {serializer : Serializer V} {listeners : Nat} {ops : Operations σ K V}
  {accepts : V → Prop} {w : World p σ V} {ks : List K}

/-- Each key has what stood for the result when it was stored there. -/
theorem run_cacheUnder (c : Contents p serializer listeners ops accepts)
    (stored : AuthResult K → V) (hw : c.Sound w) (nodup : ks.Nodup) {r : AuthResult K}
    (haccepts : ∀ before, before <+: ks → accepts (stored (r.withLookupKeys before))) :
    ∃ w', (AuthResult.cacheUnder ops stored ks r).run (World.act serializer listeners) w =
        (.ok (r.withLookupKeys ks), w') ∧ c.Sound w' ∧
      (∀ before k after, ks = before ++ k :: after →
        c.found? w' k = some (some (stored (r.withLookupKeys (before ++ [k]))))) ∧
      ∀ k, k ∉ ks → c.found? w' k = c.found? w k := by
  induction ks generalizing w r with
  | nil =>
      refine ⟨w, ?_, hw, fun before k after h => ?_, fun _ _ => rfl⟩
      · rw [r.withLookupKeys_nil]
        rfl
      · simp at h
  | cons k ks ih =>
      obtain ⟨hk, nodup⟩ := List.nodup_cons.mp nodup
      have hone : accepts (stored (r.addLookupKey k)) := haccepts [k] (by simp)
      obtain ⟨w₁, hinsert, hw₁, hput, hother⟩ := c.insert hw k hone
      -- the others are added to the result that has this key already
      obtain ⟨w₂, hrest, hw₂, hputs, hothers⟩ := ih (c.sound_told hw₁ (w.told ++ w₁.told)) nodup
        fun before hbefore => by
          rw [AuthResult.withLookupKeys_addLookupKey]
          exact haccepts _ (List.cons_prefix_cons.mpr ⟨rfl, hbefore⟩)
      simp only [c.found?_told, AuthResult.withLookupKeys_addLookupKey] at hrest hputs hothers
      refine ⟨w₂, ?_, hw₂, fun before k' after heq => ?_, fun k' hk' => ?_⟩
      · refine (Program.run_bind ..).trans ?_
        rw [show (ops.insert k _).run _ w = _ from World.run_program hinsert]
        exact hrest
      · cases before with
        | nil =>
            obtain ⟨rfl, rfl⟩ := List.cons.inj heq
            rw [hothers k hk, hput]
            rfl
        | cons b before =>
            obtain ⟨rfl, rfl⟩ := List.cons.inj heq
            exact hputs before k' after rfl
      · obtain ⟨hne, hks⟩ := not_or.mp (mt List.mem_cons.mpr hk')
        rw [hothers k' hks, hother k' hne]

/-- **Invalidating a result removes the keys that it knows.** After a result was stored under some
keys, one of them is looked up, and then any result is invalidated. The number of removed keys is
that of the different keys in its list that the cache has; they are gone, and the others still have
what was stored under them. -/
theorem invalidate_cached (c : Contents p serializer listeners ops accepts)
    (stored : AuthResult K → V) (hw : c.Sound w) (nodup : ks.Nodup) {r : AuthResult K}
    (haccepts : ∀ before, before <+: ks → accepts (stored (r.withLookupKeys before))) :
    ∃ w₁, (AuthResult.cacheUnder ops stored ks r).run (World.act serializer listeners) w =
        (.ok (r.withLookupKeys ks), w₁) ∧
      ∀ before k after, ks = before ++ k :: after →
        ∃ w₂, w₁.perform serializer listeners ops (.get k) =
            (.ok (some (stored (r.withLookupKeys (before ++ [k])))), w₂) ∧
          ∀ known : AuthResult K,
            ∃ w₃, (known.invalidateIn ops).run (World.act serializer listeners) w₂ =
                (.ok {k' | k' ∈ known.lookupKeys ∧ (k' ∈ ks ∨ (c.found? w k').isSome)}.ncard,
                  w₃) ∧
              (∀ k' ∈ known.lookupKeys,
                (w₃.perform serializer listeners ops (.get k')).1 = .ok none) ∧
              ∀ before' k' after', ks = before' ++ k' :: after' → k' ∉ known.lookupKeys →
                (w₃.perform serializer listeners ops (.get k')).1 =
                  .ok (some (stored (r.withLookupKeys (before' ++ [k'])))) := by
  obtain ⟨w₁, hcached, hw₁, hputs, hothers⟩ := c.run_cacheUnder stored hw nodup haccepts
  refine ⟨w₁, hcached, fun before k after heq => ?_⟩
  obtain ⟨w₂, hget, hw₂, hkept⟩ := c.get hw₁ k
  rw [hputs before k after heq] at hget hkept
  refine ⟨w₂, hget, fun known => ?_⟩
  obtain ⟨w₃, hrun, hw₃, hgone, hleft⟩ := c.run_removeCounting hw₂ known.lookupKeys 0
  -- every key of the list is there, and of the others those that were there before
  have hthere : ∀ k', (c.found? w₂ k').isSome ↔ k' ∈ ks ∨ (c.found? w k').isSome := by
    intro k'
    rw [hkept rfl k']
    by_cases hk' : k' ∈ ks
    · obtain ⟨before', after', heq'⟩ := List.append_of_mem hk'
      rw [hputs before' k' after' heq']
      exact iff_of_true rfl (.inl hk')
    · rw [hothers k' hk']
      exact ⟨.inr, fun h => h.resolve_left hk'⟩
  refine ⟨w₃, ?_, fun k' hk' => ?_, fun before' k' after' heq' hk' => ?_⟩
  · simp only [hthere, Nat.zero_add] at hrun
    exact hrun
  · obtain ⟨w₄, hget', -⟩ := c.get hw₃ k'
    rw [hget', hgone k' hk']
    rfl
  · obtain ⟨w₄, hget', -⟩ := c.get hw₃ k'
    rw [hget', hleft k' hk', hkept rfl, hputs before' k' after' heq']
    rfl

end Contents

/-- As many different keys are there as a list without repeats has. -/
theorem ncard_mem_eq_length {ks : List K} (nodup : ks.Nodup) {P : K → Prop} (h : ∀ k ∈ ks, P k) :
    {k | k ∈ ks ∧ P k}.ncard = ks.length := by
  classical
  have hset : {k | k ∈ ks ∧ P k} = (ks.toFinset : Set K) := by
    ext k
    simpa using h k
  rw [hset, Set.ncard_coe_finset, List.toFinset_card_of_nodup nodup]

namespace AuthResult

/-- **A result is invalidated under the keys that it knew when it was stored.** With a provider,
different keys are added to a result one after the other, and it is stored under each of them. What
is then found under one of the keys is the result with the keys up to this one. Invalidating it
removes as many keys as it knows of those that are there, which for a result that was new are those
up to this one. They are gone, and every later key still has the result. -/
theorem invalidated_as_known (p : Provider K) (listeners : Nat) {keys : Wire.Format K}
    {fits : K → Prop} (hkeys : keys.Faithful fits) {w : World p Connection (AuthResult K)}
    (hw : w.Connected) (r : AuthResult K) {ks : List K} (nodup : ks.Nodup)
    (hfits : Wire.AuthResultFits fits (r.withLookupKeys ks)) :
    let serializer : Serializer (AuthResult K) := .ofFormat (.authResult keys)
    let ops : Operations Connection K (AuthResult K) := Connection.operations serializer listeners
    ∃ w₁, (cacheUnder ops id ks r).run (World.act serializer listeners) w =
        (.ok (r.withLookupKeys ks), w₁) ∧
      ∀ before k after, ks = before ++ k :: after →
        let known := r.withLookupKeys (before ++ [k])
        ∃ w₂, w₁.perform serializer listeners ops (.get k) = (.ok (some known), w₂) ∧
          ∃ count w₃, (known.invalidateIn ops).run (World.act serializer listeners) w₂ =
              (.ok count, w₃) ∧
            count = {k' | k' ∈ known.lookupKeys ∧
              (k' ∈ ks ∨ (p.held w.store k').isSome)}.ncard ∧
            (r.lookupKeys = [] → count = before.length + 1) ∧
            (∀ k' ∈ known.lookupKeys,
              (w₃.perform serializer listeners ops (.get k')).1 = .ok none) ∧
            ∀ between k' later, after = between ++ k' :: later → k' ∉ r.lookupKeys →
              (w₃.perform serializer listeners ops (.get k')).1 =
                .ok (some (r.withLookupKeys (before ++ k :: between ++ [k']))) := by
  intro serializer ops
  have hkeeps : ∀ before, before <+: ks → serializer.Keeps (id (r.withLookupKeys before)) :=
    fun before hbefore => Serializer.keeps_ofFormat (Wire.Format.faithful_authResult hkeys)
      (hfits.of_prefix hbefore)
  obtain ⟨w₁, hcached, hfound⟩ :=
    (Contents.far p serializer listeners).invalidate_cached id hw nodup hkeeps
  refine ⟨w₁, hcached, ?_⟩
  intro before k after heq known
  obtain ⟨w₂, hget, hinvalidated⟩ := hfound before k after heq
  obtain ⟨w₃, hrun, hgone, hleft⟩ := hinvalidated known
  simp only [Contents.far, Option.isSome_map] at hrun
  have hknown : known.lookupKeys = r.lookupKeys ++ (before ++ [k]) := rfl
  have hsub : (before ++ [k]).Sublist ks := by
    rw [heq, List.append_cons before k after]
    exact List.sublist_append_left _ _
  refine ⟨w₂, hget, _, w₃, hrun, rfl, fun hnew => ?_, hgone, fun between k' later heq' hk' => ?_⟩
  · rw [hknown, hnew, List.nil_append,
      ncard_mem_eq_length (hsub.nodup nodup) fun k' hk' => .inl (hsub.subset hk')]
    simp
  · -- a later key is none of those up to this one, since no key comes twice
    have hlater : ks = (before ++ k :: between) ++ k' :: later := by simp [heq, heq']
    refine hleft _ k' later hlater ?_
    rw [hlater] at nodup
    obtain ⟨-, -, hapart⟩ := List.nodup_append.mp nodup
    rw [hknown, List.mem_append]
    rintro (hr | hb)
    · exact hk' hr
    · refine hapart k' ?_ k' List.mem_cons_self rfl
      rw [List.append_cons before k between]
      exact List.mem_append_left _ hb

/-- A result is stored under two keys, found under the first of them, and invalidated: one key is
removed, and under the other one the result is still served. -/
theorem invalidated_as_known_leaves_second :
    let p := Provider.inMemory String
    let serializer : Serializer (AuthResult String) := .ofFormat (.authResult .text)
    let ops : Operations Connection String (AuthResult String) := Connection.operations serializer 0
    let r : AuthResult String := { subject := ({} : Subject).withPrincipal "alice" }
    let w : World p Connection (AuthResult String) := { cache := {} }
    ∃ w₁ w₂ w₃, (cacheUnder ops id ["a", "b"] r).run (World.act serializer 0) w =
        (.ok (r.withLookupKeys ["a", "b"]), w₁) ∧
      w₁.perform serializer 0 ops (.get "a") = (.ok (some (r.withLookupKeys ["a"])), w₂) ∧
      ((r.withLookupKeys ["a"]).invalidateIn ops).run (World.act serializer 0) w₂ = (.ok 1, w₃) ∧
      (w₃.perform serializer 0 ops (.get "b")).1 = .ok (some (r.withLookupKeys ["a", "b"])) := by
  intro p serializer ops r w
  have hfits : Wire.AuthResultFits Wire.TextFits (r.withLookupKeys ["a", "b"]) := by decide
  obtain ⟨w₁, hcached, hfound⟩ := invalidated_as_known p 0 Wire.Format.faithful_text
    (w := w) (.inl ⟨rfl, rfl⟩) r (by decide) hfits
  obtain ⟨w₂, hget, count, w₃, hrun, -, hcount, -, hlater⟩ := hfound [] "a" ["b"] rfl
  rw [hcount rfl] at hrun
  exact ⟨w₁, w₂, w₃, hcached, hget, hrun, hlater [] "b" [] rfl (by simp [r])⟩

/-- **A shared result is invalidated everywhere.** In a cache that keeps its own entries, and any
number of them, one object stands under all keys, so that keys added later show in it wherever it is
found. Whichever key it is found under, invalidating it removes all keys. -/
theorem invalidated_everywhere [Ord K] [Std.TransOrd K] [Std.LawfulEqOrd K] (p : Provider K)
    (serializer : Serializer V) (listeners : Nat) (object : V) {w : World p (LocalCache K V) V}
    (hlimit : w.cache.limit = .unbounded) (hunique : w.cache.tables.Unique) {r : AuthResult K}
    (hnew : r.lookupKeys = []) {ks : List K} (nodup : ks.Nodup) :
    let ops : Operations (LocalCache K V) K V := LocalCache.operations listeners
    ∃ w₁, (cacheUnder ops (fun _ => object) ks r).run (World.act serializer listeners) w =
        (.ok (r.withLookupKeys ks), w₁) ∧
      ∀ k ∈ ks, ∃ w₂, w₁.perform serializer listeners ops (.get k) = (.ok (some object), w₂) ∧
        ∃ w₃, ((r.withLookupKeys ks).invalidateIn ops).run (World.act serializer listeners) w₂ =
            (.ok ks.length, w₃) ∧
          ∀ k' ∈ ks, (w₃.perform serializer listeners ops (.get k')).1 = .ok none := by
  intro ops
  obtain ⟨w₁, hcached, hfound⟩ := (Contents.near p serializer listeners).invalidate_cached
    (fun _ => object) ⟨hlimit, hunique⟩ (r := r) nodup fun _ _ => trivial
  have hall : (r.withLookupKeys ks).lookupKeys = ks := by simp [withLookupKeys, hnew]
  refine ⟨w₁, hcached, fun k hk => ?_⟩
  obtain ⟨before, after, heq⟩ := List.append_of_mem hk
  obtain ⟨w₂, hget, hinvalidated⟩ := hfound before k after heq
  obtain ⟨w₃, hrun, hgone, -⟩ := hinvalidated (r.withLookupKeys ks)
  rw [hall] at hgone
  rw [hall, ncard_mem_eq_length nodup fun k' hk' => .inl hk'] at hrun
  exact ⟨w₂, hget, w₃, hrun, hgone⟩

end AuthResult

end GenerationalCache
