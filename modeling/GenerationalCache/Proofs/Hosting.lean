import GenerationalCache.Proofs.Hearing
import GenerationalCache.Proofs.SessionSteps

/-!
# Caches next to a provider that works

A provider that opens, agrees to report, and keeps the bytes that were last put under each key. What
it takes out it reports at once, as one batch, and to every adapter that was registered with it.

A world is a cache and such a provider, with listeners that listen and do nothing else. A cache that
keeps its own entries never asks the provider for anything, so the same world is there for both kinds
of caches, and an operation of either can be run in it to its end.
-/

namespace GenerationalCache

variable {σ K V α : Type}

/-- A provider that keeps the bytes last put under each key, and nothing to begin with. -/
structure Provider (K : Type) : Type 1 where
  /-- What it may have in store. -/
  Store : Type
  /-- The store to begin with. -/
  empty : Store
  /-- Its name while it is open. -/
  handle : Handle
  /-- The bytes under a key. -/
  held : Store → K → Option Bytes
  /-- It stores bytes under a key. -/
  put : Store → K → Bytes → Store
  /-- It removes a key. -/
  remove : Store → K → Store
  /-- It removes all keys. -/
  removeAll : Store → Store
  /-- All keys with their bytes, in the order in which it reports them. -/
  entries : Store → List (K × Bytes)
  /-- There is nothing to begin with. -/
  held_empty : ∀ k, held empty k = none
  /-- Under a key are the bytes that were put there. -/
  held_put : ∀ s k bytes, held (put s k bytes) k = some bytes
  /-- To put them leaves the other keys as they were. -/
  held_put_of_ne : ∀ s {k k'} bytes, k' ≠ k → held (put s k bytes) k' = held s k'
  /-- A key that was removed is gone. -/
  held_remove : ∀ s k, held (remove s k) k = none
  /-- To remove it leaves the other keys as they were. -/
  held_remove_of_ne : ∀ s {k k'}, k' ≠ k → held (remove s k) k' = held s k'
  /-- Once all keys were removed, none is left. -/
  held_removeAll : ∀ s k, held (removeAll s) k = none
  /-- No key is reported twice. -/
  nodup_entries : ∀ s, ((entries s).map Prod.fst).Nodup
  /-- What is reported is what there is. -/
  mem_entries : ∀ {s k bytes}, (k, bytes) ∈ entries s ↔ held s k = some bytes

/-- A provider that keeps its store in a map. -/
def Provider.inMemory (K : Type) [Ord K] [Std.TransOrd K] [Std.LawfulEqOrd K] : Provider K where
  Store := Std.TreeMap K Bytes
  empty := ∅
  handle := 0
  held s k := s[k]?
  put s k bytes := s.insert k bytes
  remove s k := s.erase k
  removeAll _ := ∅
  entries s := s.toList
  held_empty _ := Std.TreeMap.getElem?_emptyc
  held_put _ _ _ := Std.TreeMap.getElem?_insert_self
  held_put_of_ne s k k' bytes h := by
    rw [Std.TreeMap.getElem?_insert, if_neg]
    rw [Std.LawfulEqCmp.compare_eq_iff_eq]
    exact Ne.symm h
  held_remove _ _ := Std.TreeMap.getElem?_erase_self
  held_remove_of_ne s k k' h := by
    rw [Std.TreeMap.getElem?_erase, if_neg]
    rw [Std.LawfulEqCmp.compare_eq_iff_eq]
    exact Ne.symm h
  held_removeAll _ _ := Std.TreeMap.getElem?_emptyc
  nodup_entries s := by
    rw [Std.TreeMap.map_fst_toList_eq_keys]
    exact s.nodup_keys
  mem_entries := Std.TreeMap.mem_toList_iff_getElem?_eq_some

/-- A cache, a provider, and what listeners have been told. -/
structure World (p : Provider K) (σ V : Type) where
  /-- The cache. -/
  cache : σ
  /-- What the provider keeps. -/
  store : p.Store := p.empty
  /-- How many adapters are registered with the provider. -/
  adapters : Nat := 0
  /-- The calls of listeners, in order. -/
  told : List (Delivery V) := []

namespace World

variable {p : Provider K} {serializer : Serializer V} {listeners : Nat}

/-- The provider reports changes, and each adapter calls the listeners. -/
def report (serializer : Serializer V) (listeners : Nat) (kind : EventKind)
    (changes : List (K × Bytes)) (w : World p σ V) : World p σ V :=
  let events := changes.map fun e => ⟨e.1, some e.2⟩
  let calls := (Receipt.ofEvents serializer listeners kind events).calls
  { w with told := w.told ++ (List.replicate w.adapters calls).flatten }

/-- What an action of a cache does. A key that is not there is removed without anybody being told,
since a report of nothing calls no listener. -/
def act (serializer : Serializer V) (listeners : Nat) {β : Type} :
    Action σ K V β → World p σ V → β × World p σ V
  | .access change, w => ((change w.cache).1, { w with cache := (change w.cache).2 })
  | .log _, w => ((), w)
  | .notify d, w => ((), { w with told := w.told ++ [d] })
  | .openProvider, w => (.ok p.handle, w)
  | .register _, w => (.ok (), { w with adapters := w.adapters + 1 })
  | .get _ k, w => (.ok (p.held w.store k), w)
  | .put _ k bytes, w =>
    let kind := if (p.held w.store k).isSome then .updated else .created
    (.ok (), report serializer listeners kind [(k, bytes)]
      { w with store := p.put w.store k bytes })
  | .remove _ k, w =>
    let taken := (p.held w.store k).toList.map (k, ·)
    (.ok (p.held w.store k).isSome, report serializer listeners .removed taken
      { w with store := p.remove w.store k })
  | .removeAll _, w =>
    (.ok (), report serializer listeners .removed (p.entries w.store)
      { w with store := p.removeAll w.store })

/-- Runs an operation to its end. What was told before is left out of what it leads to. -/
def perform (serializer : Serializer V) (listeners : Nat) (ops : Operations σ K V) (c : Call K V)
    (w : World p σ V) : c.Answer × World p σ V :=
  (ops.program c).run (act serializer listeners) { w with told := [] }

/-- What is stored is not told. -/
theorem report_stored (changes : List (K × Bytes)) (w : World p σ V) :
    report serializer listeners .created changes w = w ∧
      report serializer listeners .updated changes w = w := by
  simp [report, Receipt.ofEvents]

/-- What is taken out is told once by one adapter. -/
theorem report_removed (changes : List (K × Bytes)) {w : World p σ V} (hadapters : w.adapters = 1) :
    report serializer listeners .removed changes w =
      { w with told := w.told ++ deliveries listeners (Batch.ofValues
        (changes.filterMap fun e => (serializer.decode (some e.2)).1) .invalidated) } := by
  simp only [report, hadapters, Receipt.ofEvents, Receipt.calls_forward, List.filterMap_map]
  simp

theorem act_put (w : World p σ V) (h : Handle) (k : K) (bytes : Bytes) :
    act serializer listeners (.put h k bytes) w =
      (.ok (), { w with store := p.put w.store k bytes }) := by
  rw [act]
  split
  · rw [(report_stored _ _).2]
  · rw [(report_stored _ _).1]

theorem act_remove {w : World p σ V} (hadapters : w.adapters = 1) (h : Handle) (k : K) :
    act serializer listeners (.remove h k) w =
      (.ok (p.held w.store k).isSome, { w with
        store := p.remove w.store k
        told := w.told ++ deliveries listeners (Batch.ofValues
          (serializer.decode (p.held w.store k)).1.toList .invalidated) }) := by
  have hvalues : ∀ held : Option Bytes, (held.toList.map (k, ·)).filterMap
      (fun e => (serializer.decode (some e.2)).1) = (serializer.decode held).1.toList := by
    intro held
    cases held with
    | none => rfl
    | some bytes => cases hd : (serializer.decode (some bytes)).1 <;> simp [hd]
  rw [act, report_removed _ (by exact hadapters), hvalues]

theorem act_removeAll {w : World p σ V} (hadapters : w.adapters = 1) (h : Handle) :
    act serializer listeners (.removeAll h) w =
      (.ok (), { w with
        store := p.removeAll w.store
        told := w.told ++ deliveries listeners (Batch.ofValues
          ((p.entries w.store).filterMap fun e => (serializer.decode (some e.2)).1)
            .invalidated) }) := by
  rw [act, report_removed _ (by exact hadapters)]

/-- First an action, then the rest. -/
theorem run_step {γ : Type} {action : Action σ K V γ} {next : γ → Program σ K V α}
    {w w' : World p σ V} {reply : γ} (h : act serializer listeners action w = (reply, w')) :
    (Program.step action next).run (act serializer listeners) w =
      (next reply).run (act serializer listeners) w' := by
  rw [Program.run, h]

/-! ## A cache that keeps its own entries -/

theorem run_finishing {q : Program σ K V α} {ds : List (Delivery V)} {a : α}
    (h : q.Finishing ds a) (w : World p σ V) :
    q.run (act serializer listeners) w = (a, { w with told := w.told ++ ds }) := by
  induction h generalizing w with
  | done a => rw [List.append_nil]; rfl
  | log _ ih => exact ih w
  | @notify d _ ds _ _ ih => exact (ih _).trans (by simp)

/-- It does what its critical section does, and makes the calls that this requires. -/
theorem perform_local [Ord K] (c : Call K V) (w : World p (LocalCache K V) V) :
    perform serializer listeners (LocalCache.operations listeners) c w =
      ((Visit.mk c w.cache).answer,
        { w with
          cache := (Visit.mk c w.cache).left
          told := deliveries listeners (Visit.mk c w.cache).batches }) := by
  obtain ⟨β, change, next, hp, hv⟩ := LocalCache.program_eq listeners c
  obtain ⟨hleft, hrest⟩ := hv w.cache
  rw [perform, hp, ← hleft]
  exact run_finishing hrest _

/-! ## A cache that leaves its entries to the provider -/

/-- The cache has no provider yet, or uses this one and is registered with it once. -/
def Connected (w : World p Connection V) : Prop :=
  w.cache.handle = none ∧ w.adapters = 0 ∨ w.cache.handle = some p.handle ∧ w.adapters = 1

/-- The same with the provider open. -/
def opened (w : World p Connection V) : World p Connection V :=
  { w with cache := { w.cache with handle := some p.handle }, adapters := 1, told := [] }

theorem run_logAll (es : List LogEvent) (f : Unit → Program σ K V α) (w : World p σ V) :
    ((Program.logAll es).bind f).run (act serializer listeners) w =
      (f ()).run (act serializer listeners) w := by
  induction es with
  | nil => rfl
  | cons e es ih => exact ih

theorem run_connect {w : World p Connection V} (h : w.Connected) :
    (Connection.connect listeners : Program Connection K V _).run (act serializer listeners)
      { w with told := [] } = (.ok p.handle, w.opened) := by
  -- either the provider is there, or it opens and agrees
  obtain ⟨⟨handle, counters, nextId⟩, store, adapters, told⟩ := w
  rcases h with ⟨rfl, rfl⟩ | ⟨rfl, rfl⟩ <;> rfl

/-- An operation goes on with the provider open. -/
theorem perform_connect {w : World p Connection V} (h : w.Connected) {c : Call K V}
    {f : Except CacheFailure Handle → Program Connection K V c.Answer}
    (hc : (Connection.operations serializer listeners).program c =
      (Connection.connect listeners).bind f) :
    perform serializer listeners (Connection.operations serializer listeners) c w =
      (f (.ok p.handle)).run (act serializer listeners) w.opened := by
  rw [perform, hc, Program.run_bind, run_connect h]

/-- A lookup makes an entry of the bytes. -/
def lookedUp (serializer : Serializer V) (k : K) (w : World p Connection V) :
    Entry V × World p Connection V :=
  let made := Connection.makeEntry (serializer.decode (p.held w.store k)).1 w.opened.cache
  (made.1, { w.opened with cache := made.2 })

theorem perform_lookup {w : World p Connection V} (h : w.Connected) (k : K) :
    perform serializer listeners (Connection.operations serializer listeners) (.lookup k) w =
      (.ok (w.lookedUp serializer k).1, (w.lookedUp serializer k).2) := by
  refine (perform_connect h rfl).trans ?_
  exact run_logAll _ _ _

theorem perform_get {w : World p Connection V} (h : w.Connected) (k : K) :
    perform serializer listeners (Connection.operations serializer listeners) (.get k) w =
      (.ok (w.lookedUp serializer k).1.value, (w.lookedUp serializer k).2) := by
  refine (Program.run_bind _ _ _ _).trans ?_
  exact congrArg (fun r => (Except.map Entry.value r.1, r.2)) (perform_lookup h k)

/-- A value with bytes is put. -/
theorem perform_insert {w : World p Connection V} (h : w.Connected) (k : K) {x : V} {bytes : Bytes}
    (hx : serializer.serialize x = .ok bytes) :
    perform serializer listeners (Connection.operations serializer listeners) (.insert k x) w =
      (.ok (), { w.opened with
        cache := { w.opened.cache with counters := w.cache.counters.stored }
        store := p.put w.store k bytes }) := by
  refine (perform_connect h rfl).trans ?_
  simp only [Serializer.encode, hx]
  exact run_step (act_put w.opened p.handle k bytes)

theorem perform_remove {w : World p Connection V} (h : w.Connected) (k : K) :
    perform serializer listeners (Connection.operations serializer listeners) (.remove k) w =
      (.ok (p.held w.store k).isSome, { w.opened with
        cache := { w.opened.cache with
          counters := if (p.held w.store k).isSome then w.cache.counters.invalidated 1
            else w.cache.counters }
        store := p.remove w.store k
        told := deliveries listeners (Batch.ofValues
          (serializer.decode (p.held w.store k)).1.toList .invalidated) }) := by
  have hremove : act serializer listeners (.remove p.handle k) w.opened = _ :=
    act_remove rfl p.handle k
  refine (perform_connect h rfl).trans ((run_step hremove).trans ?_)
  cases hheld : p.held w.store k <;> simp [opened, hheld] <;> rfl

theorem perform_clear {w : World p Connection V} (h : w.Connected) :
    perform serializer listeners (Connection.operations serializer listeners) .clear w =
      (.ok (), { w.opened with
        store := p.removeAll w.store
        told := deliveries listeners (Batch.ofValues
          ((p.entries w.store).filterMap fun e => (serializer.decode (some e.2)).1)
            .invalidated) }) := by
  have hremove : act serializer listeners (.removeAll p.handle) w.opened = _ :=
    act_removeAll rfl p.handle
  exact (perform_connect h rfl).trans (run_step hremove)

end World

end GenerationalCache
