import GenerationalCache.Proofs.Hearing
import GenerationalCache.Proofs.Removals
import GenerationalCache.Scenario.Setup

/-!
# Invalidating a result under many keys

An authentication result is invalidated by removing its lookup keys one after the other. Some may
be in the list twice, some may not be cached, some may be there without a value. What comes of it is
the same for a cache that keeps its own entries and for one that leaves them to a provider: every
key that was there is removed and counted once, and each listener is told of the values one by one.

The result itself is not touched. That has content where results are shared, as they are in a local
cache: there the list belongs to an object that listeners could change while it is being worked
through. Listeners that only listen do not.
-/

namespace GenerationalCache

variable {σ K V : Type}

/-- What a listener has been told, in order. -/
def World.heard {p : Provider K} (w : World p σ V) (l : Nat) : List (Batch V) :=
  w.told.filterMap (Delivery.heardBy? l)

namespace Scenario.Session

/-! ## Shared results -/

/-- The results have their names, and they are what they were. -/
def SameResults (s s' : Session σ) : Prop := s'.objects = s.objects ∧ s'.names = s.names

namespace SameResults

variable {s s' s'' : Session σ} {script : Script σ}
  {onCall : Delivery Item → Session σ → Session σ}

theorem refl (s : Session σ) : SameResults s s := ⟨rfl, rfl⟩

theorem trans (h : SameResults s s') (h' : SameResults s' s'') : SameResults s s'' :=
  ⟨h'.1.trans h.1, h'.2.trans h.2⟩

theorem foldl {γ : Type} {f : Session σ → γ → Session σ} (hf : ∀ s x, SameResults s (f s x))
    (xs : List γ) (s : Session σ) : SameResults s (xs.foldl f s) := by
  induction xs generalizing s with
  | nil => exact refl s
  | cons x xs ih => exact (hf s x).trans (ih _)

theorem receive (hcall : ∀ d s, SameResults s (onCall d s)) (report : Report) (s : Session σ) :
    SameResults s (receive script onCall report s) := by
  have hlog : SameResults s (s.writeLog (script.receive report).log) := ⟨rfl, rfl⟩
  exact hlog.trans (foldl (fun s d => hcall d s) _ _)

theorem receiveAll (hcall : ∀ d s, SameResults s (onCall d s)) (report : Report) (s : Session σ) :
    SameResults s (receiveAll script onCall report s) :=
  foldl (fun s _ => receive hcall report s) _ s

/-- Whatever an action does, it leaves the results alone if the listeners do. -/
theorem perform (hcall : ∀ d s, SameResults s (onCall d s)) {β : Type}
    (action : Action σ String Item β) (s : Session σ) :
    SameResults s (perform script onCall action s).2 := by
  have hreport : ∀ (provider : MemoryProvider) (report : Report),
      SameResults s (Session.receiveAll script onCall report { s with provider }) :=
    fun provider report => receiveAll hcall report { s with provider }
  cases action with
  | access change => exact ⟨rfl, rfl⟩
  | log event => exact ⟨rfl, rfl⟩
  | notify d => exact hcall d s
  | openProvider | get =>
      dsimp only [Session.perform]
      split <;> exact ⟨rfl, rfl⟩
  | put =>
      dsimp only [Session.perform]
      split
      · exact ⟨rfl, rfl⟩
      · exact hreport _ _
  | remove | removeAll =>
      dsimp only [Session.perform]
      split
      · exact ⟨rfl, rfl⟩
      · split
        · exact ⟨rfl, rfl⟩
        · exact hreport _ _
  | register =>
      dsimp only [Session.perform]
      split
      · exact ⟨rfl, rfl⟩
      · -- the provider may report everything before it answers
        split
        all_goals
          dsimp only
          split
          · exact ⟨rfl, rfl⟩
          · exact receive hcall _ _

theorem run (hcall : ∀ d s, SameResults s (onCall d s)) {α : Type} (q : Program σ String Item α)
    (s : Session σ) : SameResults s (s.run script onCall q).2 := by
  induction q generalizing s with
  | done a => exact refl s
  | step action next ih => exact (perform hcall action s).trans (ih _ _)

end SameResults

/-- Listeners that only listen leave the results alone. -/
theorem sameResults_called {script : Script σ}
    (passive : ∀ listener ∈ script.listeners, listener.reactions = []) (depth : Nat)
    (d : Delivery Item) (s : Session σ) : SameResults s (called script depth d s) := by
  cases depth with
  | zero => exact ⟨rfl, rfl⟩
  | succ depth =>
      have hnothing : (s.record (.called d)).reactionSteps script d = [] := by
        unfold reactionSteps
        split
        · rfl
        · next listener hlistener => simp [passive listener (List.mem_of_getElem? hlistener)]
      rw [called, hnothing]
      exact ⟨rfl, rfl⟩

/-- Whichever shared result is invalidated, all have the lookup keys that they had. -/
def KeepsResults (script : Script σ) : Prop :=
  ∀ (name : String) (s : Session σ) (other : String),
    (s.step script (called script script.depth) (.invalidateResult name)).2.object? other =
      s.object? other

theorem keepsResults {script : Script σ}
    (passive : ∀ listener ∈ script.listeners, listener.reactions = []) : KeepsResults script := by
  intro name s other
  have hsame : SameResults s
      (s.step script (called script script.depth) (.invalidateResult name)).2 := by
    rw [step]
    split
    · exact .refl s
    · exact .run (sameResults_called passive script.depth) _ s
  rw [object?, object?, hsame.1, hsame.2]

end Scenario.Session

namespace Holdings

variable {p : Provider K} {serializer : Serializer V} {listeners : Nat} [DecidableEq K]

/-- What a cache has and what it has counted once the keys of a list have been removed. -/
structure Cleared (h : Holdings p σ V) (ks : List K) (w : World p σ V) (n : Nat)
    (w' : World p σ V) : Prop where
  /-- As many keys as different ones of the list were there, with or without a value. -/
  count : n = {k | k ∈ ks ∧ (h.held w k).isSome}.ncard
  /-- The keys of the list are gone. -/
  gone : ∀ k ∈ ks, h.held w' k = none
  /-- The others are as they were. -/
  others : ∀ k ∉ ks, h.held w' k = h.held w k
  /-- The removals have been counted. -/
  counters : h.counters w'.cache = (h.counters w.cache).invalidated n

/-- The same, with what the listeners have been told. -/
structure Revoked (h : Holdings p σ V) (listeners : Nat) (ks : List K) (w : World p σ V)
    (n : Nat) (w' : World p σ V) : Prop extends h.Cleared ks w n w' where
  /-- The values are reported one by one. -/
  hears : ∀ l < listeners, w'.heard l = w.heard l ++ h.batches w ks

theorem Removed.cleared {h : Holdings p σ V} {ks : List K} {w w' : World p σ V}
    (hr : h.Removed listeners ks w w') : h.Cleared ks w (present (h.held w) ks).length w' where
  count := length_present _ _
  gone k hk := by simp [hr.held, without, hk]
  others k hk := by simp [hr.held, without, hk]
  counters := hr.counters

theorem Removed.revoked {h : Holdings p σ V} {ks : List K} {w w' : World p σ V}
    (hr : h.Removed listeners ks w w') :
    h.Revoked listeners ks w (present (h.held w) ks).length w' where
  toCleared := hr.cleared
  hears l hl := by
    rw [World.heard, hr.told, List.filterMap_append, filterMap_heardBy_deliveries, if_pos hl]
    rfl

/-- Invalidating the result removes all that is there under its keys, and doing it once more changes
nothing. -/
def Revokes (h : Holdings p σ V) (serializer : Serializer V) (listeners : Nat)
    (ops : Operations σ K V) (r : AuthResult K) (w : World p σ V) : Prop :=
  ∃ n w', (r.invalidateIn ops).run (World.act serializer listeners) w = (.ok n, w') ∧
    h.Revoked listeners r.lookupKeys w n w' ∧
    ∃ w'', (r.invalidateIn ops).run (World.act serializer listeners) w' = (.ok 0, w'') ∧
      w''.cache = w'.cache ∧ w''.told = w'.told ∧ ∀ k, h.held w'' k = h.held w' k

theorem Accounts.revokes {h : Holdings p σ V} {ops : Operations σ K V}
    (a : h.Accounts serializer listeners ops) {w : World p σ V} (hw : a.Sound w)
    (r : AuthResult K) : h.Revokes serializer listeners ops r w := by
  obtain ⟨w', hrun, hw', hremoved, -⟩ := a.run_removeCounting hw r.lookupKeys 0
  obtain ⟨w'', hrun', -, hremoved', hsame⟩ := a.run_removeCounting hw' r.lookupKeys 0
  rw [Nat.zero_add] at hrun
  -- the second time there is nothing under any of the keys
  have hgone : ∀ k ∈ r.lookupKeys, h.held w' k = none := hremoved.revoked.gone
  have hnone : present (h.held w') r.lookupKeys = [] := by
    rw [hremoved.held, present_without]
  rw [hnone] at hrun'
  refine ⟨_, w', hrun, hremoved.revoked, w'', hrun', hsame hgone, ?_, fun k => ?_⟩
  · have hsilent : h.batches w' r.lookupKeys = [] := by
      rw [batches, List.map_eq_nil_iff, List.filterMap_eq_nil_iff]
      intro k hk
      rw [hgone k (List.mem_eraseDups.mp hk), Option.bind_none]
    rw [hremoved'.told, hsilent]
    exact List.append_nil _
  · by_cases hk : k ∈ r.lookupKeys
    · rw [hremoved'.revoked.gone k hk, hgone k hk]
    · exact hremoved'.revoked.others k hk

end Holdings

namespace AuthResult

/-- **Invalidating a result removes each of its keys once.** In every reachable state of a local
cache, and in every state of a distributed cache that has its provider open, if the listeners only
listen. And whatever kind of cache it is, and whatever fails, the lookup keys of a result that is
shared are the same afterwards. -/
theorem invalidateIn_revokes [DecidableEq K] (p : Provider K) (serializer : Serializer V)
    (listeners : Nat) (r : AuthResult K) :
    (∀ [Ord K] [Std.TransOrd K] [Std.LawfulEqOrd K] (limit : EntryLimit) (s : Usage K V),
      Usage.Reachable listeners limit s → ∀ w : World p (LocalCache K V) V, w.cache = s.cache →
        (Holdings.near p).Revokes serializer listeners (LocalCache.operations listeners) r w) ∧
    (∀ w : World p Connection V, w.Attached →
      (Holdings.far p serializer).Revokes serializer listeners
        (Connection.operations serializer listeners) r w) ∧
    ∀ (σ : Type) (script : Scenario.Script σ),
      (∀ listener ∈ script.listeners, listener.reactions = []) →
      Scenario.Session.KeepsResults script := by
  refine ⟨fun limit s hs w hw => ?_, fun w hw => ?_, fun σ script passive => ?_⟩
  · have hunique : w.cache.tables.Unique := hw ▸ hs.unique.1
    exact (Holdings.nearAccounts p serializer listeners).revokes hunique r
  · exact (Holdings.farAccounts p serializer listeners).revokes hw r
  · exact Scenario.Session.keepsResults passive

/-- Of five lookup keys one comes twice and one is not cached. In the local cache another one has a
placeholder, and values are in two generations; with the provider one has bytes that are no text. -/
theorem invalidateIn_revokes_with_repeats :
    let p := Provider.inMemory Nat
    let r : AuthResult Nat := { subject := {}, lookupKeys := [8, 9, 7, 8, 5] }
    let far : World p Connection String := {
      cache := { handle := some 0 }
      store := p.put (p.put p.empty 7 [97]) 8 [255]
      adapters := 1 }
    (∃ (s : Usage Nat String) (w : World p (LocalCache Nat String) String),
      Usage.Reachable 1 .unbounded s ∧
      (Holdings.near p).Revoked 1 r.lookupKeys { cache := s.cache } 3 w ∧
      w.heard 0 = [⟨["eight"], .invalidated⟩, ⟨["seven"], .invalidated⟩]) ∧
    (∃ w, (Holdings.far p .bareText).Revoked 1 r.lookupKeys far 2 w ∧
      w.heard 0 = [⟨["a"], .invalidated⟩]) ∧
    ∀ operations : Operations Nat String Scenario.Item, Scenario.Session.KeepsResults
      { operations, receive := fun _ => ⟨[], []⟩, listeners := [⟨true, []⟩], depth := 1 } := by
  intro p r far
  have hs : Usage.Reachable 1 .unbounded _ :=
    (((Usage.leads_alone 1 (Usage.start .unbounded) (.insert 7 "seven")).trans
      (Usage.leads_alone 1 _ .evictStale)).trans (Usage.leads_alone 1 _ (.insert 8 "eight"))).trans
      (Usage.leads_alone 1 _ (.lookup 9))
  obtain ⟨hnear, hfar, hsession⟩ := invalidateIn_revokes p .bareText 1 r
  refine ⟨?_, ?_, fun operations => ?_⟩
  · obtain ⟨n, w, hrun, hrevoked, -⟩ := hnear .unbounded _ hs { cache := _ } rfl
    have hthree := (congrArg (fun x => x.1.toOption) hrun).symm.trans
      (show _ = some 3 by decide +kernel)
    obtain rfl := Option.some.inj hthree
    refine ⟨_, w, hs, hrevoked, ?_⟩
    rw [hrevoked.hears 0 (by decide)]
    decide +kernel
  · obtain ⟨n, w, hrun, hrevoked, -⟩ := hfar far ⟨rfl, rfl⟩
    obtain rfl : n = 2 := Except.ok.inj (congrArg Prod.fst hrun).symm
    refine ⟨w, hrevoked, ?_⟩
    rw [hrevoked.hears 0 (by decide)]
    rfl
  · exact hsession Nat _ (by simp)

end AuthResult

end GenerationalCache
