import GenerationalCache.Proofs.SessionSteps
import GenerationalCache.Proofs.Usage
import GenerationalCache.Scenario.Setup

/-!
# Sessions are runs

A session runs the operations of a local cache one after the other, and its listeners react to a
call by more operations before the call is over. This is one of the many ways to use a cache: the
operation that makes the call stays in progress while those of the reaction begin and end, and a
reaction may call listeners that react in turn. So whatever a scenario does, at every depth of
nesting, is a run of the machine, and what holds in every reachable state holds for the sessions
that are carried out.
-/

namespace GenerationalCache

namespace Scenario

/-- The script is for a local cache: its provider has nothing to report to it. -/
structure Script.IsLocal (script : Script (LocalCache String Item)) : Prop where
  /-- The operations are those of a local cache with these listeners. -/
  operations : script.operations = LocalCache.operations script.listeners.length
  /-- A report calls no listener. -/
  receive : ∀ r, (script.receive r).calls = []

namespace Session

/-- A session is where a cache in use is, with these calls made before the present step. -/
structure Mirrors (past : List (Delivery Item)) (s : Session (LocalCache String Item))
    (u : Usage String Item) : Prop where
  /-- The caches are the same. -/
  cache : u.cache = s.cache
  /-- The calls are the same. -/
  told : u.told.map Prod.snd = past ++ s.calls

/-- Whatever is in progress, a cache in use may get from where one session is to where the other
is, and then just that is in progress. -/
def Follows (listeners : Nat) (s s' : Session (LocalCache String Item)) : Prop :=
  ∀ past u, Mirrors past s u → ∃ u', Usage.Leads listeners u u' ∧ u'.ongoing = u.ongoing ∧
    Mirrors past s' u'

variable {n : Nat} {s s' s'' : Session (LocalCache String Item)}
  {script : Script (LocalCache String Item)}
  {onCall : Delivery Item → Session (LocalCache String Item) → Session (LocalCache String Item)}

variable (script) in
/-- The end of an operation: the log and the calls, each with the reaction to it. -/
theorem follows_finishing (hreacts : Reacts (Follows n) onCall) {v : Visit String Item}
    {rest : Program (LocalCache String Item) String Item v.call.Answer}
    {ds : List (Delivery Item)} {a : v.call.Answer} (hrest : rest.Finishing ds a)
    {past : List (Delivery Item)} {u : Usage String Item} {others : List (Ongoing String Item)}
    (hu : Mirrors past s u) (here : u.ongoing = .finishing v rest :: others) :
    ∃ u', Usage.Leads n u u' ∧ u'.ongoing = others ∧
      Mirrors past (s.run script onCall rest).2 u' ∧
      (s.run script onCall rest).1 = a ∧ ⟨v, a⟩ ∈ u'.answered := by
  induction hrest generalizing s u with
  | done a =>
      have hstep := @Usage.Step.answer String Item _ n u v a [] others here
      refine ⟨_, .single hstep, rfl, ?_, rfl, ?_⟩
      · exact ⟨hu.cache, hu.told⟩
      · exact List.mem_append_right _ (List.mem_singleton_self _)
  | @log e next ds a rest ih =>
      have hstep := @Usage.Step.log String Item _ n u v e next [] others here
      have hmirrors : Mirrors past (s.writeLog [e])
          { u with ongoing := [] ++ .finishing v (next ()) :: others } := ⟨hu.cache, hu.told⟩
      obtain ⟨u', hleads, h⟩ := ih hmirrors rfl
      exact ⟨u', .head hstep hleads, h⟩
  | @notify d next ds a rest ih =>
      have hstep := @Usage.Step.notify String Item _ n u v d next [] others here
      have hmirrors : Mirrors past (s.record (.called d)) { u with
          ongoing := [] ++ .finishing v (next ()) :: others
          told := u.told ++ [(v, d)] } := by
        refine ⟨hu.cache, ?_⟩
        rw [calls_record_called, List.map_append, hu.told, List.append_assoc]
        rfl
      -- the operation stays in progress while the listener reacts
      obtain ⟨u₁, hleads₁, hongoing₁, hu₁⟩ := hreacts d s past _ hmirrors
      obtain ⟨u', hleads, h⟩ := ih hu₁ hongoing₁
      exact ⟨u', .head hstep (hleads₁.trans hleads), h⟩

/-- **Running an operation in a session is an operation of the machine**, with the same answer. -/
theorem follows_call (hreacts : Reacts (Follows n) onCall) (c : Call String Item)
    {past : List (Delivery Item)} {u : Usage String Item} (hu : Mirrors past s u) :
    ∃ u', Usage.Leads n u u' ∧ u'.ongoing = u.ongoing ∧
      Mirrors past (s.run script onCall ((LocalCache.operations n).program c)).2 u' ∧
      ⟨⟨c, s.cache⟩, (s.run script onCall ((LocalCache.operations n).program c)).1⟩ ∈
        u'.answered := by
  obtain ⟨β, change, next, hp, hv⟩ := LocalCache.program_eq n c
  obtain ⟨-, hrest⟩ := hv s.cache
  obtain ⟨cache, ongoing, history, told, answered⟩ := u
  obtain rfl : cache = s.cache := hu.cache
  have hcall : Usage.Step n _ _ := .call ⟨s.cache, ongoing, history, told, answered⟩ c
  have henter := @Usage.Step.enter String Item _ n ⟨s.cache, .waiting c :: ongoing, history, told,
    answered⟩ c β change next [] ongoing rfl hp
  have hmirrors : Mirrors past { s with cache := (change s.cache).2 }
      ⟨(change s.cache).2, [] ++ .finishing ⟨c, s.cache⟩ (next (change s.cache).1) :: ongoing,
        history ++ [⟨c, s.cache⟩], told, answered⟩ := ⟨rfl, hu.told⟩
  obtain ⟨u', hleads, hongoing, hu', ha, hmem⟩ :=
    follows_finishing script hreacts hrest hmirrors rfl
  rw [hp]
  refine ⟨u', .head hcall (.head henter hleads), hongoing, hu', ?_⟩
  rw [← ha] at hmem
  exact hmem

/-- Operations are runs, and reports are nothing to a local cache. -/
theorem tracks_follows (hlocal : script.IsLocal) :
    Tracks script (Follows script.listeners.length) where
  trans h h' := by
    intro past u hu
    obtain ⟨u', hleads, hongoing, hu'⟩ := h past u hu
    obtain ⟨u'', hleads', hongoing', hu''⟩ := h' past u' hu'
    exact ⟨u'', hleads.trans hleads', hongoing'.trans hongoing, hu''⟩
  aside hcache hcalls _ := by
    intro past u hu
    exact ⟨u, .refl, rfl, hu.cache.trans hcache.symm, hcalls ▸ hu.told⟩
  program hreacts c := by
    intro s past u hu
    rw [hlocal.operations]
    obtain ⟨u', hleads, hongoing, hu', -⟩ := follows_call hreacts c hu
    exact ⟨u', hleads, hongoing, hu'⟩
  receive _ report s := by
    intro past u hu
    rw [receive, hlocal.receive]
    exact ⟨u, .refl, rfl, hu.cache, hu.told⟩

/-! ## Scenarios -/

/-- One step of a scenario, from one idle state of the machine to another. -/
theorem report_reachable (hlocal : script.IsLocal) {limit : EntryLimit} {u : Usage String Item}
    (hu : Usage.Reachable script.listeners.length limit u) (hidle : u.ongoing = [])
    (hcache : u.cache = s.cache) (hnew : s.happenings = []) (scenarioStep : Step) :
    ∃ u', Usage.Reachable script.listeners.length limit u' ∧ u'.ongoing = [] ∧
      u'.cache = (s.report script scenarioStep).2.cache ∧
      u'.told.map Prod.snd = u.told.map Prod.snd ++
        (s.step script (called script script.depth) scenarioStep).2.calls := by
  have hmirrors : Mirrors (u.told.map Prod.snd) s u := by
    refine ⟨hcache, ?_⟩
    simp [calls, hnew]
  have htracks := tracks_follows hlocal
  obtain ⟨u', hleads, hongoing, hu'⟩ :=
    htracks.step (htracks.reacts_called script.depth) scenarioStep s _ _ hmirrors
  exact ⟨u', hu.trans hleads, hongoing.trans hidle, hu'.cache, hu'.told⟩

/-- All steps of a scenario: each of them shows a reachable state, and so does the end. -/
theorem reports_reachable (hlocal : script.IsLocal) {limit : EntryLimit} {u : Usage String Item}
    (hu : Usage.Reachable script.listeners.length limit u) (hidle : u.ongoing = [])
    (hcache : u.cache = s.cache) (hnew : s.happenings = []) (steps : List Step) :
    (∃ u', Usage.Reachable script.listeners.length limit u' ∧ u'.ongoing = [] ∧
      u'.cache = (s.reports script steps).2.cache) ∧
    ∀ r ∈ (s.reports script steps).1, ∃ u' : Usage String Item,
      Usage.Reachable script.listeners.length limit u' ∧ u'.ongoing = [] ∧
      r.sizes = u'.cache.tables.sizes := by
  induction steps generalizing s u with
  | nil => exact ⟨⟨u, hu, hidle, hcache⟩, by simp [reports]⟩
  | cons scenarioStep steps ih =>
      obtain ⟨u₁, hu₁, hidle₁, hcache₁, -⟩ :=
        report_reachable hlocal hu hidle hcache hnew scenarioStep
      obtain ⟨hend, hall⟩ := ih hu₁ hidle₁ hcache₁ rfl
      refine ⟨hend, fun r hr => ?_⟩
      rcases List.mem_cons.mp hr with rfl | hr
      · refine ⟨u₁, hu₁, hidle₁, ?_⟩
        have hsizes : script.operations.sizes = fun c => c.tables.sizes := by
          rw [hlocal.operations]
          rfl
        rw [hcache₁]
        exact congrFun hsizes _
      · exact hall r hr

end Session

/-- **Every scenario on a local cache is a run.** What it shows after each of its steps, and at its
end, it shows of reachable states of the machine in which nothing is in progress. -/
theorem runLocal_reachable (builder : Builder) (listeners : List ListenerScript) (depth : Nat)
    (steps : List Step) :
    (∃ u : Usage String Item,
      Usage.Reachable listeners.length (.ofSize builder.entryLimit) u ∧ u.ongoing = [] ∧
      (runLocal builder listeners depth steps).counters = u.cache.counters ∧
      ∀ p ∈ (runLocal builder listeners depth steps).generations,
        p.2 = u.cache.tables.generationOf? p.1) ∧
    ∀ r ∈ (runLocal builder listeners depth steps).steps, ∃ u : Usage String Item,
      Usage.Reachable listeners.length (.ofSize builder.entryLimit) u ∧ u.ongoing = [] ∧
      r.sizes = u.cache.tables.sizes := by
  let script : Script (LocalCache String Item) :=
    { operations := LocalCache.operations listeners.length
      receive := fun _ => ⟨[], []⟩
      listeners
      depth }
  have hlocal : script.IsLocal := ⟨rfl, fun _ => rfl⟩
  let first : Session (LocalCache String Item) :=
    { cache := builder.build, scheduled := builder.schedulerPeriod?.isSome }
  have hstart : Usage.Reachable listeners.length (.ofSize builder.entryLimit)
      (Usage.start (.ofSize builder.entryLimit) : Usage String Item) := .refl
  obtain ⟨⟨u, hu, hidle, hcache⟩, hall⟩ :=
    Session.reports_reachable (s := first) hlocal hstart rfl rfl rfl steps
  refine ⟨⟨u, hu, hidle, ?_, ?_⟩, hall⟩
  · rw [hcache]
    rfl
  · rintro p hp
    obtain ⟨key, -, rfl⟩ := List.mem_map.mp hp
    rw [hcache]
    rfl

end Scenario

end GenerationalCache
