import GenerationalCache.Proofs.Books
import GenerationalCache.Proofs.Capacity
import GenerationalCache.Proofs.Hosting
import GenerationalCache.Proofs.RoundTrip
import GenerationalCache.Proofs.Serving

/-!
# Both kinds of caches agree

The same operations, one after the other, on a cache without a limit that keeps its own entries and
on a cache that leaves them to a provider. The tables of the one and the store of the other have
nothing in common but what they say about a key: the value of the entry that the tables have is the
value of the bytes that the provider has. Every operation keeps it so.

The tables also have entries without a value, which a lookup leaves behind when it finds nothing. No
lookup and no listener can tell them from nothing. A removal can, and it is the only operation that
does.
-/

namespace GenerationalCache

variable {K V : Type}

namespace Call

/-- Whether a removal found the key. -/
def removed? : (c : Call K V) → c.Answer → Option Bool
  | remove _, .ok present => some present
  | _, _ => none

theorem removed?_eq_none {c : Call K V} (h : ∀ k, c ≠ .remove k) (a : c.Answer) :
    c.removed? a = none := by
  cases c with
  | remove k => exact absurd rfl (h k)
  | _ => rfl

end Call

/-- The same lookups and stores have been counted. -/
structure Counters.Alike (a b : Counters) : Prop where
  /-- Lookups that found a value. -/
  hits : a.hits = b.hits
  /-- Lookups that found none. -/
  misses : a.misses = b.misses
  /-- Values that were stored. -/
  inserts : a.inserts = b.inserts

namespace Counters.Alike

variable {a b c : Counters}

theorem symm (h : a.Alike b) : b.Alike a := ⟨h.hits.symm, h.misses.symm, h.inserts.symm⟩

theorem trans (h : a.Alike b) (h' : b.Alike c) : a.Alike c :=
  ⟨h.hits.trans h'.hits, h.misses.trans h'.misses, h.inserts.trans h'.inserts⟩

theorem lookedUp (h : a.Alike b) (hit : Bool) : (a.lookedUp hit).Alike (b.lookedUp hit) := by
  cases hit with
  | false => exact ⟨h.hits, congrArg (· + 1) h.misses, h.inserts⟩
  | true => exact ⟨congrArg (· + 1) h.hits, h.misses, h.inserts⟩

theorem stored (h : a.Alike b) : a.stored.Alike b.stored :=
  ⟨h.hits, h.misses, congrArg (· + 1) h.inserts⟩

theorem invalidated (a : Counters) (n : Nat) : (a.invalidated n).Alike a := ⟨rfl, rfl, rfl⟩

theorem displaced (a : Counters) : a.displaced.Alike a := ⟨rfl, rfl, rfl⟩

end Counters.Alike

/-- The same listener is told that the same values were removed, in whatever order. -/
structure Delivery.Alike (d e : Delivery V) : Prop where
  /-- The same one is told. -/
  listener : d.listener = e.listener
  /-- Both calls tell of removals. -/
  reason : d.batch.reason = .invalidated ∧ e.batch.reason = .invalidated
  /-- The values are the same, each as often as in the other call. -/
  values : d.batch.values.Perm e.batch.values

theorem batch_mem_of_mem_deliveries {listeners : Nat} {batches : List (Batch V)} {d : Delivery V}
    (h : d ∈ deliveries listeners batches) : d.batch ∈ batches := by
  obtain ⟨b, hb, hd⟩ := List.mem_flatMap.mp h
  obtain ⟨l, -, rfl⟩ := List.mem_map.mp hd
  exact hb

/-- Batches of the same values are told alike. -/
theorem alike_deliveries (listeners : Nat) {xs ys : List V} (h : xs.Perm ys) :
    List.Forall₂ Delivery.Alike
      ((deliveries listeners (Batch.ofValues xs .invalidated)).filter fun d =>
        d.batch.reason ≠ .replaced)
      (deliveries listeners (Batch.ofValues ys .invalidated)) := by
  cases xs with
  | nil =>
      obtain rfl := h.nil_eq
      exact .nil
  | cons x xs =>
      cases ys with
      | nil => exact absurd h.symm.nil_eq (by simp)
      | cons y ys =>
          simp only [Batch.ofValues, List.isEmpty_cons, deliveries, List.flatMap_singleton,
            Batch.deliveries, Bool.false_eq_true, if_false]
          rw [List.filter_eq_self.mpr (by simp), List.forall₂_map_left_iff,
            List.forall₂_map_right_iff]
          exact List.forall₂_same.mpr fun l _ => ⟨rfl, ⟨rfl, rfl⟩, h⟩

/-! ## What the tables say about keys -/

section

variable {α β : Type}

/-- The values of a list in which every key is at most once, with their keys. -/
theorem nodup_valued {as : List (K × α)} (h : (as.map Prod.fst).Nodup) (f : α → Option V) :
    (as.filterMap fun a => (f a.2).map (a.1, ·)).Nodup := by
  have hkeys : as.Pairwise fun a a' => a.1 ≠ a'.1 := List.pairwise_map.mp h
  rw [List.Nodup, List.pairwise_filterMap]
  refine hkeys.imp fun {a a'} hne p hp p' hp' hpp => hne ?_
  obtain ⟨_, -, rfl⟩ := Option.map_eq_some_iff.mp hp
  obtain ⟨_, -, rfl⟩ := Option.map_eq_some_iff.mp hp'
  exact (Prod.mk.inj hpp).1

/-- Two lists in which every key is at most once have the same values, if they say the same of every
key. -/
theorem filterMap_perm_of_keys {as : List (K × α)} {bs : List (K × β)} (f : α → Option V)
    (g : β → Option V) (has : (as.map Prod.fst).Nodup) (hbs : (bs.map Prod.fst).Nodup)
    (h : ∀ k x, (∃ a, (k, a) ∈ as ∧ f a = some x) ↔ ∃ b, (k, b) ∈ bs ∧ g b = some x) :
    (as.filterMap fun a => f a.2).Perm (bs.filterMap fun b => g b.2) := by
  -- with its key no value is there twice, so it is enough that the same ones are there
  have hkeyed : (as.filterMap fun a => (f a.2).map (a.1, ·)).Perm
      (bs.filterMap fun b => (g b.2).map (b.1, ·)) := by
    refine (List.perm_ext_iff_of_nodup (nodup_valued has f) (nodup_valued hbs g)).mpr ?_
    rintro ⟨k, x⟩
    have hk := h k x
    simp only [List.mem_filterMap, Option.map_eq_some_iff, Prod.mk.injEq, Prod.exists]
    grind
  have hvalues := hkeyed.map Prod.snd
  simpa [List.map_filterMap, Option.map_map, Function.comp_def] using hvalues

end

/-- The bytes that a provider has, if it has any, are of the value that there is, if there is one. -/
structure Serializer.Represents (s : Serializer V) (value : Option V) (held : Option Bytes) :
    Prop where
  /-- The value is what the bytes hold. -/
  values : value = (s.decode held).1
  /-- There are bytes exactly if there is a value. -/
  reads : held.isSome = value.isSome

theorem Serializer.represents_none (s : Serializer V) : s.Represents none none := ⟨rfl, rfl⟩

theorem Serializer.represents_some {s : Serializer V} {x : V} {bytes : Bytes}
    (h : s.deserialize bytes = .ok x) : s.Represents (some x) (some bytes) :=
  ⟨by simp only [decode, h], rfl⟩

/-- An operation leaves the cache connected, and what the provider has under a key changes as the
operation says. -/
theorem World.held_perform {p : Provider K} {serializer : Serializer V} {listeners : Nat}
    {c : Call K V} {w w' : World p Connection V} {a : c.Answer} (h : w.Connected)
    (hw : w.perform serializer listeners (Connection.operations serializer listeners) c = (a, w'))
    (hc : c.NeedsProvider) (hk : ∀ x, c.stored? = some x → serializer.Keeps x) :
    w'.Connected ∧ ∀ k,
      (∀ x, c = .insert k x → serializer.Represents (some x) (p.held w'.store k)) ∧
      (c.Discards k → p.held w'.store k = none) ∧
      (¬ c.Stores k → ¬ c.Discards k → p.held w'.store k = p.held w.store k) := by
  cases c with
  | lookup k' =>
      rw [perform_lookup h] at hw
      cases hw
      exact ⟨.inr ⟨rfl, rfl⟩, fun k => ⟨(fun _ hx => nomatch hx), False.elim, fun _ _ => rfl⟩⟩
  | get k' =>
      rw [perform_get h] at hw
      cases hw
      exact ⟨.inr ⟨rfl, rfl⟩, fun k => ⟨(fun _ hx => nomatch hx), False.elim, fun _ _ => rfl⟩⟩
  | insert k' x =>
      obtain ⟨bytes, hwrite, hread⟩ := hk x rfl
      rw [perform_insert h k' hwrite] at hw
      cases hw
      refine ⟨.inr ⟨rfl, rfl⟩, fun k => ⟨fun y hy => ?_, False.elim, fun hn _ => ?_⟩⟩
      · cases hy
        exact (p.held_put _ _ _).symm ▸ Serializer.represents_some hread
      · exact p.held_put_of_ne _ _ (Ne.symm hn)
  | remove k' =>
      rw [perform_remove h] at hw
      cases hw
      refine ⟨.inr ⟨rfl, rfl⟩, fun k => ⟨(fun _ hx => nomatch hx), ?_, fun _ hn => ?_⟩⟩
      · rintro rfl
        exact p.held_remove _ _
      · exact p.held_remove_of_ne _ (Ne.symm hn)
  | clear =>
      rw [perform_clear h] at hw
      cases hw
      exact ⟨.inr ⟨rfl, rfl⟩, fun k => ⟨(fun _ hx => nomatch hx),
        fun _ => p.held_removeAll _ k, fun _ hn => absurd trivial hn⟩⟩
  | evictStale | evictionRequired => exact hc.elim

variable [Ord K]

namespace Tables

/-- All keys with their entries. -/
def bindings (t : Tables K V) : List (K × Entry V) :=
  t.primary.toList ++ t.secondary.toList ++ t.tertiary.toList

theorem resident_eq_filterMap (t : Tables K V) :
    t.resident = t.bindings.filterMap fun b => b.2.value := by
  simp only [resident, entries, Entry.values, Table.values_eq_map_snd, bindings,
    List.filterMap_append, List.filterMap_map]
  rfl

variable [Std.TransOrd K]

theorem find?_empty (k : K) : (empty : Tables K V).find? k = none := by
  rw [find?_eq, slot_empty]
  rfl

variable [Std.LawfulEqOrd K]

theorem Unique.mem_bindings {t : Tables K V} (h : t.Unique) {k : K} {e : Entry V} :
    (k, e) ∈ t.bindings ↔ t.find? k = some e := by
  rw [find?_eq, Option.map_eq_some_iff]
  simp only [bindings, List.mem_append, Std.TreeMap.mem_toList_iff_getElem?_eq_some]
  constructor
  · rintro ((hk | hk) | hk)
    · exact ⟨(.primary, e), h.slot_eq_some.mpr hk, rfl⟩
    · exact ⟨(.secondary, e), h.slot_eq_some.mpr hk, rfl⟩
    · exact ⟨(.tertiary, e), h.slot_eq_some.mpr hk, rfl⟩
  · rintro ⟨⟨g, e'⟩, hs, rfl⟩
    have hk := h.slot_eq_some.mp hs
    cases g with
    | primary => exact .inl (.inl hk)
    | secondary => exact .inl (.inr hk)
    | tertiary => exact .inr hk

/-- No key is in two tables, so none has two entries. -/
theorem Unique.nodup_bindings {t : Tables K V} (h : t.Unique) :
    (t.bindings.map Prod.fst).Nodup := by
  have hdisjoint : ∀ {u u' : Table K V}, (∀ k, k ∈ u → k ∉ u') → u.keys.Disjoint u'.keys :=
    fun hu k hk hk' => hu k (Std.TreeMap.mem_keys.mp hk) (Std.TreeMap.mem_keys.mp hk')
  simp only [bindings, List.map_append, Std.TreeMap.map_fst_toList_eq_keys]
  refine List.nodup_append'.mpr ⟨List.nodup_append'.mpr ⟨t.primary.nodup_keys,
    t.secondary.nodup_keys, hdisjoint h.primary_secondary⟩, t.tertiary.nodup_keys, ?_⟩
  exact List.disjoint_append_left.mpr
    ⟨hdisjoint h.primary_tertiary, hdisjoint h.secondary_tertiary⟩

end Tables

namespace LocalCache

/-- The value under a key. -/
def value? (c : LocalCache K V) (k : K) : Option V := (c.tables.find? k).bind Entry.value

/-- A placeholder is reserved for the key. -/
def Placeheld (c : LocalCache K V) (k : K) : Prop :=
  ∃ e, c.tables.find? k = some e ∧ e.value = none

/-- What the tables have for a key is a value or a placeholder. -/
theorem isSome_find? (c : LocalCache K V) (k : K) :
    (c.tables.find? k).isSome ↔ (c.value? k).isSome ∨ c.Placeheld k := by
  unfold value? Placeheld
  cases c.tables.find? k with
  | none => simp
  | some e => cases hv : e.value <;> simp [hv]

theorem Placeheld.value?_eq_none {c : LocalCache K V} {k : K} (h : c.Placeheld k) :
    c.value? k = none := by
  obtain ⟨e, he, hv⟩ := h
  rw [value?, he]
  exact hv

/-- Without a limit an insert does nothing but store. -/
theorem insert_of_unbounded {c : LocalCache K V} (h : c.limit = .unbounded) (k : K) (x : V) :
    ∃ displaced, (c.insert k x).1 = ⟨[], displaced⟩ ∧ (c.insert k x).2.counters =
      if displaced.isSome then c.counters.stored.displaced else c.counters.stored := by
  unfold insert
  rw [h, Tables.makeRoom_unbounded]
  exact ⟨_, rfl, rfl⟩

end LocalCache

namespace Visit

variable {v : Visit K V} {k : K}

variable [Std.TransOrd K] [Std.LawfulEqOrd K]

/-- What an operation that sweeps nothing does to the value of a key. -/
theorem value?_left (h : v.found.tables.Unique) (hr : v.rotations = 0) (k : K) :
    (∀ x, v.call = .insert k x → v.left.value? k = some x) ∧
    (v.call.Discards k → v.left.value? k = none) ∧
    (¬ v.call.Stores k → ¬ v.call.Discards k → v.left.value? k = v.found.value? k) := by
  -- the cases are the ways in which an operation can affect a key
  unfold LocalCache.value?
  rw [Tables.find?_eq v.left.tables]
  cases effect h k with
  | lookedUp hl hs =>
      rw [hs]
      refine ⟨fun x hx => ?_, fun hd => ?_, fun _ _ => ?_⟩
      · rw [hx] at hl
        exact hl.elim
      · exact absurd (.inl hl) hd.not_touches
      · cases v.found.tables.find? k <;> rfl
  | stored x hi hs =>
      rw [hs, hi]
      refine ⟨fun y hy => ?_, fun hd => hd.elim, fun hn => absurd rfl hn⟩
      cases hy
      rfl
  | discarded hd hs =>
      rw [hs]
      refine ⟨fun x hx => ?_, fun _ => rfl, fun _ hn => absurd hd hn⟩
      rw [hx] at hd
      exact hd.elim
  | quiet ht hd hs =>
      -- nothing is swept, so the entry is where it was
      rw [hs, hr, Tables.aged_zero, ← Tables.find?_eq]
      refine ⟨fun x hx => ?_, fun h => absurd h hd, fun _ _ => rfl⟩
      rw [hx] at ht
      exact absurd (.inr rfl) ht

/-- A key has a placeholder when a lookup has just missed it, or when it had one before and was
neither stored nor removed. -/
theorem placeheld_left (h : v.found.tables.Unique) (hr : v.rotations = 0) (k : K) :
    v.left.Placeheld k ↔ v.call.LooksUp k ∧ v.found.value? k = none ∨
      v.found.Placeheld k ∧ ¬ v.call.Stores k ∧ ¬ v.call.Discards k := by
  unfold LocalCache.Placeheld LocalCache.value?
  rw [Tables.find?_eq v.left.tables]
  cases effect h k with
  | lookedUp hl hs =>
      have hd : ¬ v.call.Discards k := fun hd => hd.not_touches (.inl hl)
      rw [hs]
      cases v.found.tables.find? k <;> simp [hl, hl.not_stores, hd, Entry.placeholder]
  | stored x hi hs =>
      rw [hs, hi]
      simp [Call.LooksUp, Call.Stores, Entry.resolved]
  | discarded hd hs =>
      have hl : ¬ v.call.LooksUp k := fun hl => hd.not_touches (.inl hl)
      rw [hs]
      simp [hl, hd]
  | quiet ht hd hs =>
      rw [hs, hr, Tables.aged_zero, ← Tables.find?_eq]
      simp [hd, not_or.mp ht]

end Visit

/-! ## Two caches in tandem -/

/-- What an operation came to. -/
structure Upshot (c : Call K V) where
  /-- What it answered. -/
  answer : c.Answer
  /-- The calls of listeners that it made or caused, in order. -/
  told : List (Delivery V)
  /-- The counters after it. -/
  counters : Counters

/-- An operation on both caches. -/
structure Turn (K V : Type) [Ord K] where
  /-- The operation. -/
  call : Call K V
  /-- The cache that keeps its own entries, before. -/
  found : LocalCache K V
  /-- What the operation came to there. -/
  near : Upshot call
  /-- What it came to on the cache that leaves them to the provider. -/
  far : Upshot call

namespace Turn

/-- A lookup missed the key. -/
def Misses (k : K) (t : Turn K V) : Prop :=
  t.call.LooksUp k ∧ t.call.value? t.near.answer = some none

/-- The two caches agree on an operation. -/
structure Agrees (t : Turn K V) : Prop where
  /-- It fails on neither. -/
  succeeds : t.call.failure? t.near.answer = none ∧ t.call.failure? t.far.answer = none
  /-- If it is a lookup, it finds the same value on both, or none. -/
  values : t.call.value? t.near.answer = t.call.value? t.far.answer
  /-- The same has been counted. -/
  counters : t.near.counters.Alike t.far.counters
  /-- A key that the provider had was in the tables. -/
  removed : t.call.removed? t.far.answer = some true → t.call.removed? t.near.answer = some true
  /-- A key that was only in the tables had a placeholder there. -/
  removedNear : t.call.removed? t.near.answer = some true ∧
      t.call.removed? t.far.answer = some false ↔
    ∃ k, t.call = .remove k ∧ t.found.Placeheld k
  /-- Listeners are told alike, but for the values that were replaced: of those only one cache
  tells. -/
  told : List.Forall₂ Delivery.Alike (t.near.told.filter fun d => d.batch.reason ≠ .replaced)
    t.far.told

/-- Only a removal can tell a placeholder from nothing. -/
theorem Agrees.of_ne_remove {t : Turn K V} (h : ∀ k, t.call ≠ .remove k)
    (succeeds : t.call.failure? t.near.answer = none ∧ t.call.failure? t.far.answer = none)
    (values : t.call.value? t.near.answer = t.call.value? t.far.answer)
    (counters : t.near.counters.Alike t.far.counters)
    (told : List.Forall₂ Delivery.Alike (t.near.told.filter fun d => d.batch.reason ≠ .replaced)
      t.far.told) : t.Agrees where
  succeeds
  values
  counters
  removed hfar := by
    rw [t.call.removed?_eq_none h] at hfar
    cases hfar
  removedNear := by
    rw [t.call.removed?_eq_none h]
    simp [h]
  told

end Turn

/-- A lookup has missed the key, and since then the key was neither stored nor removed. -/
def Reserved (k : K) (turns : List (Turn K V)) : Prop :=
  ∃ earlier t since, turns = earlier ++ t :: since ∧ t.Misses k ∧
    ∀ u ∈ since, ¬ u.call.Stores k ∧ ¬ u.call.Discards k

theorem reserved_snoc {k : K} {turns : List (Turn K V)} {t : Turn K V} :
    Reserved k (turns ++ [t]) ↔
      t.Misses k ∨ Reserved k turns ∧ ¬ t.call.Stores k ∧ ¬ t.call.Discards k := by
  constructor
  · rintro ⟨earlier, u, since, heq, hu, hsince⟩
    rcases moments_concat heq with ⟨-, rfl⟩ | ⟨since', rfl⟩
    · exact .inl hu
    · obtain rfl : since' ++ [t] = since := by simpa using heq
      obtain ⟨hsince, ht⟩ := List.forall_mem_append.mp hsince
      exact .inr ⟨⟨earlier, u, since', rfl, hu, hsince⟩, ht t List.mem_cons_self⟩
  · rintro (ht | ⟨⟨earlier, u, since, rfl, hu, hsince⟩, ht⟩)
    · exact ⟨turns, t, [], rfl, ht, List.forall_mem_nil _⟩
    · refine ⟨earlier, u, since ++ [t], by simp, hu, ?_⟩
      exact List.forall_mem_append.mpr ⟨hsince, List.forall_mem_singleton.mpr ht⟩

/-- The two caches agree on all operations so far. -/
structure Agreement (turns : List (Turn K V)) : Prop where
  /-- Every operation came to the same on both. -/
  agrees : ∀ t ∈ turns, t.Agrees
  /-- A placeholder is in the tables because an earlier lookup has missed its key. -/
  reserved : ∀ earlier t later, turns = earlier ++ t :: later →
    ∀ k, t.found.Placeheld k ↔ Reserved k earlier

/-- Two caches, each in its world, after the same operations. -/
structure Tandem (p : Provider K) (V : Type) [Ord K] where
  /-- The cache that keeps its own entries. -/
  near : World p (LocalCache K V) V := { cache := { limit := .unbounded } }
  /-- The cache that leaves them to the provider. -/
  far : World p Connection V := { cache := {} }
  /-- The operations, in order. -/
  turns : List (Turn K V) := []

namespace Tandem

variable {p : Provider K}

/-- The next operation. -/
def turn (serializer : Serializer V) (listeners : Nat) (t : Tandem p V) (c : Call K V) :
    Turn K V :=
  let near := t.near.perform serializer listeners (LocalCache.operations listeners) c
  let far := t.far.perform serializer listeners (Connection.operations serializer listeners) c
  { call := c, found := t.near.cache
    near := ⟨near.1, near.2.told, near.2.cache.counters⟩
    far := ⟨far.1, far.2.told, far.2.cache.counters⟩ }

/-- Both caches after the next operation. -/
def step (serializer : Serializer V) (listeners : Nat) (t : Tandem p V) (c : Call K V) :
    Tandem p V where
  near := (t.near.perform serializer listeners (LocalCache.operations listeners) c).2
  far := (t.far.perform serializer listeners (Connection.operations serializer listeners) c).2
  turns := t.turns ++ [t.turn serializer listeners c]

/-- Both caches after all of these operations, beginning with new caches and an empty store. -/
def run (serializer : Serializer V) (listeners : Nat) (calls : List (Call K V)) : Tandem p V :=
  calls.foldl (step serializer listeners) {}

/-- The tables and the store say the same of every key. -/
structure Matches (serializer : Serializer V) (t : Tandem p V) : Prop where
  /-- Nothing has to make room, for a provider never does. -/
  limit : t.near.cache.limit = .unbounded
  /-- No key is in two generations. -/
  unique : t.near.cache.tables.Unique
  /-- The other cache has its provider. -/
  connected : t.far.Connected
  /-- Under every key the provider has the bytes of the value, and nothing for a placeholder. -/
  represents : ∀ k, serializer.Represents (t.near.cache.value? k) (p.held t.far.store k)
  /-- Both have counted the same lookups and stores. -/
  counters : t.near.cache.counters.Alike t.far.cache.counters
  /-- The placeholders are of keys that were missed. -/
  reserved : ∀ k, t.near.cache.Placeheld k ↔ Reserved k t.turns

variable {serializer : Serializer V} {listeners : Nat} {t : Tandem p V} {c : Call K V}

theorem Matches.value_lookup (hm : t.Matches serializer) (k : K) :
    (t.near.cache.lookup k).1.value = (t.far.lookedUp serializer k).1.value :=
  (t.near.cache.value_lookup k).trans (hm.represents k).values

theorem Matches.counters_lookup (hm : t.Matches serializer) (k : K) :
    (t.near.cache.lookup k).2.counters.Alike (t.far.lookedUp serializer k).2.cache.counters := by
  have h := hm.counters.lookedUp (t.near.cache.lookup k).1.value.isSome
  rw [hm.value_lookup k] at h
  have hnear : (t.near.cache.lookup k).2.counters =
      t.near.cache.counters.lookedUp (t.near.cache.lookup k).1.value.isSome := rfl
  rw [hnear, hm.value_lookup k]
  exact h

theorem misses_turn (serializer : Serializer V) (listeners : Nat) (t : Tandem p V) (c : Call K V)
    (k : K) : (t.turn serializer listeners c).Misses k ↔
      c.LooksUp k ∧ t.near.cache.value? k = none := by
  have hvalue : ∀ k, some (t.near.cache.lookup k).1.value = some none ↔
      t.near.cache.value? k = none := by
    intro k
    rw [LocalCache.value_lookup, Option.some.injEq]
    rfl
  rw [turn, World.perform_local]
  refine and_congr_right fun hl => ?_
  cases c with
  | lookup k' | get k' =>
      cases hl
      exact hvalue _
  | _ => exact hl.elim

/-- Both caches store a value, and only the tables have one to tell of that it replaces. -/
theorem agrees_insert (hm : t.Matches serializer) (k : K) {x : V} (hk : serializer.Keeps x) :
    (t.turn serializer listeners (.insert k x)).Agrees := by
  obtain ⟨bytes, hwrite, -⟩ := hk
  obtain ⟨displaced, hinsert, hcounters⟩ := LocalCache.insert_of_unbounded hm.limit k x
  have hcounted : (t.near.cache.insert k x).2.counters.Alike t.far.cache.counters.stored := by
    refine (?_ : Counters.Alike _ _).trans hm.counters.stored
    rw [hcounters]
    split
    · exact .displaced _
    · exact ⟨rfl, rfl, rfl⟩
  have hbatches : (Visit.mk (.insert k x) t.near.cache).batches =
      Batch.ofValues displaced.toList .replaced :=
    congrArg Insertion.batches hinsert
  rw [turn, World.perform_local, World.perform_insert hm.connected k hwrite]
  refine .of_ne_remove (fun _ => nofun) ⟨rfl, rfl⟩ rfl hcounted ?_
  refine List.forall₂_nil_right_iff.mpr (List.filter_eq_nil_iff.mpr fun d hd => ?_)
  have hbatch := batch_mem_of_mem_deliveries hd
  rw [hbatches, Batch.mem_ofValues] at hbatch
  simp [hbatch.2]

/-- Both caches remove the same value, and a placeholder is found by the tables alone. -/
theorem agrees_remove (hm : t.Matches serializer) (k : K) :
    (t.turn serializer listeners (.remove k)).Agrees := by
  have hremoved : (t.near.cache.remove k).1 = t.near.cache.tables.find? k :=
    Tables.remove_fst _ k
  have hfound := t.near.cache.isSome_find? k
  have hcounters : ∀ (b : Bool) (a : Counters), (if b then a.invalidated 1 else a).Alike a := by
    intro b a
    cases b with
    | false => exact ⟨rfl, rfl, rfl⟩
    | true => exact .invalidated a 1
  -- the tables find a value or a placeholder, and the provider only a value
  have hanswers : some (t.near.cache.remove k).1.isSome = some true ∧
      some (p.held t.far.store k).isSome = some false ↔ t.near.cache.Placeheld k := by
    rw [hremoved, (hm.represents k).reads, Option.some.injEq, Option.some.injEq, hfound]
    constructor
    · rintro ⟨hvalue | hplace, hnone⟩
      · rw [hnone] at hvalue
        cases hvalue
      · exact hplace
    · intro hplace
      exact ⟨.inr hplace, by rw [hplace.value?_eq_none]; rfl⟩
  have hbatches : (Visit.mk (.remove k) t.near.cache).batches =
      Batch.ofValues (t.near.cache.value? k).toList .invalidated :=
    congrArg (fun e => Batch.ofValues (Option.bind e Entry.value).toList _) hremoved
  rw [turn, World.perform_local, World.perform_remove hm.connected]
  refine ⟨⟨rfl, rfl⟩, rfl, ?_, ?_, ?_, ?_⟩
  · exact ((hcounters _ _).trans hm.counters).trans (hcounters _ _).symm
  · intro hfar
    have hvalue : (t.near.cache.value? k).isSome := by
      rw [← (hm.represents k).reads]
      exact Option.some.inj hfar
    exact congrArg some ((congrArg Option.isSome hremoved).trans (hfound.mpr (.inl hvalue)))
  · refine hanswers.trans ⟨fun hplace => ⟨k, rfl, hplace⟩, ?_⟩
    rintro ⟨k', hk', hplace⟩
    cases hk'
    exact hplace
  · dsimp only
    rw [hbatches, (hm.represents k).values]
    exact alike_deliveries listeners (.refl _)

variable [Std.TransOrd K]

theorem matches_start : ({} : Tandem p V).Matches serializer where
  limit := rfl
  unique := Tables.unique_empty
  connected := .inl ⟨rfl, rfl⟩
  represents k := by
    have hvalue : ({} : Tandem p V).near.cache.value? k = none :=
      congrArg (Option.bind · Entry.value) (Tables.find?_empty k)
    rw [hvalue, p.held_empty]
    exact serializer.represents_none
  counters := ⟨rfl, rfl, rfl⟩
  reserved k := by
    constructor
    · rintro ⟨e, he, -⟩
      rw [Tables.find?_empty] at he
      cases he
    · rintro ⟨earlier, u, since, h, -⟩
      cases earlier <;> cases h

variable [Std.LawfulEqOrd K]

/-- The values in the tables are those in the store. -/
theorem Matches.resident_perm (hm : t.Matches serializer) :
    t.near.cache.tables.resident.Perm
      ((p.entries t.far.store).filterMap fun e => (serializer.decode (some e.2)).1) := by
  rw [Tables.resident_eq_filterMap]
  refine filterMap_perm_of_keys Entry.value (fun bytes => (serializer.decode (some bytes)).1)
    hm.unique.nodup_bindings (p.nodup_entries _) fun k x => ?_
  simp only [hm.unique.mem_bindings, p.mem_entries]
  rw [← Option.bind_eq_some_iff]
  have hvalues := (hm.represents k).values
  unfold LocalCache.value? at hvalues
  rw [hvalues]
  cases p.held t.far.store k <;> simp [Serializer.decode]

/-- Both caches agree on the next operation. -/
theorem agrees_turn (hm : t.Matches serializer) (hc : c.NeedsProvider)
    (hk : ∀ x, c.stored? = some x → serializer.Keeps x) :
    (t.turn serializer listeners c).Agrees := by
  cases c with
  | lookup k =>
      rw [turn, World.perform_local, World.perform_lookup hm.connected]
      exact .of_ne_remove (fun _ => nofun) ⟨rfl, rfl⟩ (congrArg some (hm.value_lookup k))
        (hm.counters_lookup k) .nil
  | get k =>
      rw [turn, World.perform_local, World.perform_get hm.connected]
      exact .of_ne_remove (fun _ => nofun) ⟨rfl, rfl⟩ (congrArg some (hm.value_lookup k))
        (hm.counters_lookup k) .nil
  | insert k x => exact agrees_insert hm k (hk x rfl)
  | remove k => exact agrees_remove hm k
  | clear =>
      rw [turn, World.perform_local, World.perform_clear hm.connected]
      refine .of_ne_remove (fun _ => nofun) ⟨rfl, rfl⟩ rfl ?_ ?_
      · exact (Counters.Alike.invalidated _ _).trans hm.counters
      · exact alike_deliveries listeners hm.resident_perm
  | evictStale | evictionRequired => exact hc.elim

/-- And then they still match. -/
theorem matches_step (hm : t.Matches serializer) (hc : c.NeedsProvider)
    (hk : ∀ x, c.stored? = some x → serializer.Keeps x) :
    (t.step serializer listeners c).Matches serializer := by
  have hr : (Visit.mk c t.near.cache).rotations = 0 :=
    Visit.rotations_of_unbounded hm.limit (by rintro rfl; exact hc.elim)
  have hagrees : (t.turn serializer listeners c).Agrees := agrees_turn hm hc hk
  have hnear : (t.step serializer listeners c).near.cache = (Visit.mk c t.near.cache).left := by
    rw [step, World.perform_local]
  obtain ⟨hconnected, hheld⟩ : (t.step serializer listeners c).far.Connected ∧ _ :=
    World.held_perform hm.connected rfl hc hk
  refine ⟨?_, ?_, hconnected, fun k => ?_, hagrees.counters, fun k => ?_⟩
  · rw [hnear, Visit.limit_left]
    exact hm.limit
  · rw [hnear]
    exact Visit.unique_left hm.unique
  · -- on both sides the key is stored, or it is removed, or it is left alone
    obtain ⟨hstored, hdiscarded, hleft⟩ := Visit.value?_left hm.unique hr k
    obtain ⟨hstored', hdiscarded', hleft'⟩ := hheld k
    rw [hnear]
    by_cases hs : c.Stores k
    · obtain ⟨x, rfl⟩ : ∃ x, c = .insert k x := by
        cases c with
        | insert k' x => exact ⟨x, congrArg (Call.insert · x) hs⟩
        | _ => exact hs.elim
      rw [hstored x rfl]
      exact hstored' x rfl
    · by_cases hd : c.Discards k
      · rw [hdiscarded hd, hdiscarded' hd]
        exact serializer.represents_none
      · rw [hleft hs hd, hleft' hs hd]
        exact hm.represents k
  · rw [hnear, Visit.placeheld_left hm.unique hr k, hm.reserved k, step, reserved_snoc, misses_turn]
    exact .rfl

/-- After all operations both caches match, and have agreed on each of them. -/
theorem matches_run (calls : List (Call K V)) (hneeds : ∀ c ∈ calls, c.NeedsProvider)
    (hkeeps : ∀ c ∈ calls, ∀ x, c.stored? = some x → serializer.Keeps x) :
    (run serializer listeners calls : Tandem p V).Matches serializer ∧
      (run serializer listeners calls : Tandem p V).turns.map Turn.call = calls ∧
      Agreement (run serializer listeners calls : Tandem p V).turns := by
  induction calls using List.reverseRecOn with
  | nil =>
      refine ⟨matches_start, rfl, List.forall_mem_nil _, fun earlier t later h => ?_⟩
      cases earlier <;> cases h
  | append_singleton calls c ih =>
      obtain ⟨hneeds, hc⟩ := List.forall_mem_append.mp hneeds
      obtain ⟨hkeeps, hk⟩ := List.forall_mem_append.mp hkeeps
      obtain ⟨hm, hcalls, hagreement⟩ := ih hneeds hkeeps
      have hc := List.forall_mem_singleton.mp hc
      have hk := List.forall_mem_singleton.mp hk
      rw [run, List.foldl_concat]
      refine ⟨matches_step hm hc hk, ?_, ?_, fun earlier t later heq => ?_⟩
      -- the operations before have been agreed on, and the last one begins where they match
      · rw [step, List.map_append]
        exact congrArg (· ++ [c]) hcalls
      · exact List.forall_mem_append.mpr
          ⟨hagreement.agrees, List.forall_mem_singleton.mpr (agrees_turn hm hc hk)⟩
      · rcases moments_concat heq with ⟨rfl, rfl⟩ | ⟨later', h⟩
        · exact hm.reserved
        · exact hagreement.reserved earlier t later' h

/-- **The two kinds of caches agree.** Values are texts or subjects, in the byte format, whose lengths
fit into words of 64 bits, as they do in any memory. After any operations, one after the other, each
has succeeded on both caches, each lookup has found the same on both, and the same has been counted
after each of them. A removal found the key on one of them only when there was a placeholder, which
an earlier miss had left. And the listeners were told the same about removals, in the same order but
for that of the values in a batch, and of the values that were replaced they were told only by the
one. -/
theorem modes_agree (p : Provider K) (listeners : Nat) :
    (∀ calls : List (Call K String),
      (∀ c ∈ calls, c.NeedsProvider ∧ ∀ x, c.stored? = some x → Wire.TextFits x) →
      let t : Tandem p String := run (.ofFormat .text) listeners calls
      t.turns.map Turn.call = calls ∧ Agreement t.turns) ∧
    (∀ calls : List (Call K Subject),
      (∀ c ∈ calls, c.NeedsProvider ∧ ∀ x, c.stored? = some x → Wire.SubjectFits x) →
      let t : Tandem p Subject := run (.ofFormat .subject) listeners calls
      t.turns.map Turn.call = calls ∧ Agreement t.turns) := by
  -- nothing depends on the format but that it is faithful
  have hany : ∀ {V : Type} {f : Wire.Format V} {fits : V → Prop}, f.Faithful fits →
      ∀ calls : List (Call K V),
        (∀ c ∈ calls, c.NeedsProvider ∧ ∀ x, c.stored? = some x → fits x) →
        let t : Tandem p V := run (.ofFormat f) listeners calls
        t.turns.map Turn.call = calls ∧ Agreement t.turns := by
    intro V f fits hf calls hcalls
    exact (matches_run calls (fun c hc => (hcalls c hc).1)
      fun c hc x hx => Serializer.keeps_ofFormat hf ((hcalls c hc).2 x hx)).2
  exact ⟨hany Wire.Format.faithful_text, hany Wire.Format.faithful_subject⟩

/-- A placeholder is found only where the tables are. -/
theorem modes_agree_on_placeholder :
    let t : Tandem (.inMemory Nat) String := run (.ofFormat .text) 1
      [.get 7, .remove 7, .insert 7 "a", .insert 7 "b", .get 7, .clear]
    Agreement t.turns ∧
      (t.turns.map fun u => (u.call.removed? u.near.answer, u.call.removed? u.far.answer)) =
        [(none, none), (some true, some false), (none, none), (none, none), (none, none),
          (none, none)] ∧
      (t.turns.map fun u => u.near.told) =
        [[], [], [], [⟨0, ⟨["a"], .replaced⟩⟩], [], [⟨0, ⟨["b"], .invalidated⟩⟩]] ∧
      (t.turns.map fun u => u.far.told) = [[], [], [], [], [], [⟨0, ⟨["b"], .invalidated⟩⟩]] := by
  refine ⟨((modes_agree (.inMemory Nat) 1).1 _ ?_).2, ?_, ?_, ?_⟩
  · simp [Call.NeedsProvider, Call.stored?, Wire.TextFits]
    decide
  · rfl
  · rfl
  · rfl

end Tandem

end GenerationalCache
