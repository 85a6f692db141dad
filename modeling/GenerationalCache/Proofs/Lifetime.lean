import GenerationalCache.Proofs.Racing
import GenerationalCache.Proofs.Timekeeping

/-!
# How long an untouched key lives

The scheduler rotates once in half a timeout, rounded down, and the third rotation after the last
touch drops a key. A touch may come just before a rotation, and then the first of the three is
already over, as far as time is concerned. What is left are two full periods and the nanosecond that
the touch was before that rotation at least; and this nanosecond is just what the rounding takes
away from an odd timeout. So no untouched key leaves before a full timeout is over.

When only the scheduler rotates, the age of a key is the number of ticks since its last touch, and
everything else is a matter of counting ticks: how far apart they are, and how many there have been.
-/

namespace GenerationalCache

variable {K V : Type} [Ord K]

/-- A builder with a timeout has a period of half of it, if that is any time at all. -/
theorem Builder.schedulerPeriod?_withTimeout (b : Builder) (timeout : Duration) :
    (b.withTimeout timeout).schedulerPeriod? =
      if timeout.half = 0 then none else some timeout.half := by
  by_cases hzero : timeout.total = 0
  · have hnone : b.withTimeout timeout = { b with timeout := none } := by
      rw [withTimeout, if_pos hzero]
    have hhalf : timeout.half = 0 := by
      rw [Duration.half, hzero]
    rw [hnone, if_pos hhalf]
    rfl
  · have hsome : b.withTimeout timeout = { b with timeout := some timeout } := by
      rw [withTimeout, if_neg hzero]
    rw [hsome, schedulerPeriod?, Option.bind_some]

/-- **Three ticks after a touch take a full timeout.** -/
theorem length_le_of_spaced {α : Type} {time : α → Nat} {ticks : List α} {touched now : Nat}
    {timeout : Duration} (next : ∀ d ∈ ticks, touched < time d)
    (spaced : ticks.Pairwise fun d e => time d + timeout.half ≤ time e)
    (past : ∀ d ∈ ticks, time d ≤ now) (young : now < touched + timeout.total) :
    ticks.length ≤ 2 := by
  match ticks with
  | [] | [_] | [_, _] => simp
  | d :: e :: f :: rest =>
      obtain ⟨hd, hrest⟩ := List.pairwise_cons.mp spaced
      obtain ⟨he, -⟩ := List.pairwise_cons.mp hrest
      have h₁ := next d (by simp)
      have h₂ := hd e (by simp)
      have h₃ := he f (by simp)
      have h₄ := past f (by simp)
      unfold Duration.half at h₂ h₃
      omega

/-- **When ticks are punctual, there are three of them in three periods.** The next tick after the
touch is number `m`, and no more than a period away, and number `m + n` is still to come. -/
theorem three_le_of_punctual {first touched now period m n : Nat}
    (next : first + period * m ≤ touched + period) (due : now < first + period * (m + n))
    (old : touched + 3 * period ≤ now) : 3 ≤ n := by
  have hlt : period * (m + 2) < period * (m + n) := by
    rw [Nat.mul_add]
    omega
  have hcount : m + 2 < m + n := Nat.lt_of_mul_lt_mul_left hlt
  omega

namespace TimedUsage

variable {b : Builder} {began : Nat} {s : TimedUsage K V} {k : K} {d v : Dated K V}
  {earlier later before after : List (Dated K V)}

/-- Where only ticks rotate, each of them once, there are as many rotations as ticks. -/
theorem rotationsIn_eq_length {l : List (Dated K V)}
    (sweeps : ∀ d ∈ l, d.scheduled → d.visit.call = .evictStale)
    (only : ∀ d ∈ l, d.visit.rotations ≠ 0 → d.scheduled) :
    rotationsIn (l.map Dated.visit) = (l.filter Dated.scheduled).length := by
  induction l with
  | nil => rfl
  | cons d l ih =>
      rw [List.map_cons, rotationsIn,
        ih (fun e he => sweeps e (by simp [he])) fun e he => only e (by simp [he])]
      by_cases hd : d.scheduled
      · have hone : d.visit.rotations = 1 := by
          rw [Visit.rotations, sweeps d (by simp) hd]
        rw [hone, List.filter_cons_of_pos hd, List.length_cons, Nat.add_comm]
      · have hzero : d.visit.rotations = 0 := by
          by_contra hne
          exact hd (only d (by simp) hne)
        rw [hzero, List.filter_cons_of_neg hd, Nat.zero_add]

/-- What a sweep finds in the tertiary generation it drops, and if it is a value, reports. -/
theorem sweep_drops [Std.TransOrd K] [Std.LawfulEqOrd K] {v : Visit K V}
    (hv : v.call = .evictStale) (hu : v.found.tables.Unique) {e : Entry V}
    (he : v.found.tables.slot k = some (.tertiary, e)) :
    v.left.tables.slot k = none ∧ ∀ x, e.value = some x →
      ∃ values, v.batches = [⟨values, .expired⟩] ∧ x ∈ values := by
  obtain ⟨call, c⟩ := v
  obtain rfl : call = .evictStale := hv
  refine ⟨?_, fun x hx => ?_⟩
  · have hrotate : (Visit.mk .evictStale c).left.tables.slot k = Tables.aged 1 (c.tables.slot k) :=
      Tables.slot_rotate c.tables k
    rw [hrotate, he]
    rfl
  · have hmem : x ∈ Entry.values c.tables.tertiary.values :=
      Table.mem_values_of_getElem? (hu.slot_eq_some.mp he) hx
    have hbatches : (Visit.mk .evictStale c).batches =
        Batch.ofValues (Entry.values c.tables.tertiary.values) .expired := rfl
    refine ⟨_, ?_, hmem⟩
    rw [hbatches, Batch.ofValues]
    cases hvalues : Entry.values c.tables.tertiary.values with
    | nil =>
        rw [hvalues] at hmem
        exact absurd hmem List.not_mem_nil
    | cons y ys => rfl

/-- The key was last touched by `d` and not removed since, and nothing but ticks has rotated. -/
structure Resting (s : TimedUsage K V) (k : K) (earlier : List (Dated K V)) (d : Dated K V)
    (later : List (Dated K V)) : Prop where
  /-- `d` has a place among the critical sections, with some before it and some after. -/
  split : s.dated = earlier ++ d :: later
  /-- It touches the key. -/
  touched : d.visit.call.Touches k
  /-- No later one does. -/
  untouched : ∀ w ∈ later, ¬ w.visit.call.Touches k
  /-- No later one removes the key. -/
  kept : ∀ w ∈ later, ¬ w.visit.call.Discards k
  /-- Rotations are made by ticks, and by nobody else. -/
  only : ∀ w ∈ s.dated, w.visit.rotations ≠ 0 → w.scheduled

namespace Resting

theorem mem_dated (r : s.Resting k earlier d later) {w : Dated K V} (hw : w ∈ later) :
    w ∈ s.dated := by
  rw [r.split]
  exact List.mem_append_right _ (List.mem_cons_of_mem _ hw)

theorem sweeps (r : s.Resting k earlier d later) (h : s.Sound b began) {w : Dated K V}
    (hw : w ∈ later) (scheduled : w.scheduled) : w.visit.call = .evictStale :=
  h.sweeps w (List.mem_filter.mpr ⟨r.mem_dated hw, scheduled⟩)

/-- The touch itself is no tick. -/
theorem ticks_eq (r : s.Resting k earlier d later) (h : s.Sound b began) :
    s.ticks = earlier.filter Dated.scheduled ++ later.filter Dated.scheduled := by
  have hd : ¬ d.scheduled := by
    intro hd
    have hcall := h.sweeps d (List.mem_filter.mpr ⟨by simp [r.split], hd⟩)
    have ht := r.touched
    rw [hcall] at ht
    exact ht.elim False.elim False.elim
  rw [ticks, r.split, List.filter_append, List.filter_cons_of_neg hd]

theorem chronicle (r : s.Resting k earlier d later) (h : s.Sound b began) :
    Chronicle { limit := .ofSize b.entryLimit } (earlier.map Dated.visit) d.visit.found ∧
      Chronicle d.visit.left (later.map Dated.visit) s.usage.cache := by
  have hc := h.whole.chronicle
  have hhistory : s.whole.history =
      earlier.map Dated.visit ++ d.visit :: later.map Dated.visit := by
    rw [show s.whole.history = s.usage.history from rfl, ← h.visits, r.split, List.map_append,
      List.map_cons]
  rw [hhistory] at hc
  exact hc.split_at

/-- When ticks are a period apart, and the first of them is at most a period away from the touch, so
is the next one. -/
theorem punctual_next (r : s.Resting k earlier d later) (h : s.Sound b began)
    {first period n : Nat} (soon : first ≤ d.time + period)
    (punctual : s.ticks.map Dated.time = (List.range n).map fun i => first + period * i) :
    first + period * (earlier.filter Dated.scheduled).length ≤ d.time + period := by
  rcases List.eq_nil_or_concat (earlier.filter Dated.scheduled) with hnil | ⟨l, a, hla⟩
  · rw [hnil]
    exact soon
  · rw [List.concat_eq_append] at hla
    have ha : a ∈ earlier.filter Dated.scheduled := by simp [hla]
    have hle : a.time ≤ d.time := by
      have hordered := h.ordered
      rw [r.split] at hordered
      exact (List.pairwise_append.mp hordered).2.2 a (List.mem_filter.mp ha).1 d List.mem_cons_self
    -- it is the last one before the touch, and its time is the one that is due in its place
    have hindex : (s.ticks.map Dated.time)[l.length]? = some a.time := by
      rw [r.ticks_eq h, hla]
      simp
    rw [punctual, List.getElem?_map] at hindex
    obtain ⟨i, hi, hai⟩ := Option.map_eq_some_iff.mp hindex
    obtain ⟨hlt, hi⟩ := List.getElem?_eq_some_iff.mp hi
    rw [List.getElem_range] at hi
    rw [hla, List.length_append, List.length_singleton, Nat.mul_succ, hi]
    omega

variable [Std.TransOrd K] [Std.LawfulEqOrd K]

/-- **The age of the key is the number of ticks since its last touch**, now and at any moment in
between. -/
theorem slot_after (r : s.Resting k earlier d later) (h : s.Sound b began)
    (hsplit : later = before ++ after) {c : LocalCache K V}
    (hc : Chronicle d.visit.left (before.map Dated.visit) c) :
    ∃ e, d.visit.left.tables.slot k = some (.primary, e) ∧ c.tables.slot k =
      (Generation.ofAge? (before.filter Dated.scheduled).length).map fun g => (g, e) := by
  have hu := (r.chronicle h).1.unique Tables.unique_empty
  have hin : ∀ w ∈ before, w ∈ later := fun w hw => by simp [hsplit, hw]
  obtain ⟨e, he⟩ := Visit.slot_left_of_touches hu r.touched
  have hslot := hc.slot_quiet (Visit.unique_left hu) (k := k)
    (by simpa using fun w hw => r.untouched w (hin w hw))
    (by simpa using fun w hw => r.kept w (hin w hw))
  have hrotations := rotationsIn_eq_length (fun w hw => r.sweeps h (hin w hw))
    fun w hw => r.only w (r.mem_dated (hin w hw))
  refine ⟨e, he, ?_⟩
  rw [hslot, he, hrotations, Tables.aged]
  simp [Generation.age]

theorem generation_eq (r : s.Resting k earlier d later) (h : s.Sound b began) :
    s.usage.cache.tables.generationOf? k =
      Generation.ofAge? (later.filter Dated.scheduled).length := by
  obtain ⟨e, -, hslot⟩ := r.slot_after h (List.append_nil _).symm (r.chronicle h).2
  rw [Tables.generationOf?_eq, hslot, Option.map_map]
  simp [Function.comp_def]

/-- The third tick finds the key in the tertiary generation, and drops it. -/
theorem third_tick (r : s.Resting k earlier d later) (h : s.Sound b began)
    (hsplit : later = before ++ v :: after) (scheduled : v.scheduled)
    (third : (before.filter Dated.scheduled).length = 2) :
    v.visit.found.tables.generationOf? k = some .tertiary ∧
      v.visit.left.tables.generationOf? k = none ∧
      ∀ x, (d.visit.left.tables.find? k).bind Entry.value = some x →
        ∃ values, v.visit.batches = [⟨values, .expired⟩] ∧ x ∈ values := by
  obtain ⟨hbefore, hafter⟩ := r.chronicle h
  rw [hsplit, List.map_append, List.map_cons] at hafter
  obtain ⟨hfound, -⟩ := hafter.split_at
  have hu := hfound.unique (Visit.unique_left (hbefore.unique Tables.unique_empty))
  obtain ⟨e, he, hslot⟩ := r.slot_after h hsplit hfound
  rw [third] at hslot
  have hcall := r.sweeps h (w := v) (by simp [hsplit]) scheduled
  obtain ⟨hnone, hvalues⟩ := sweep_drops hcall hu hslot
  rw [Tables.generationOf?_eq, Tables.generationOf?_eq, hslot, hnone, Tables.find?_eq, he]
  exact ⟨rfl, rfl, hvalues⟩

end Resting

variable [DecidableEq V]

/-- What becomes of a key that was last touched by `d`, where `later` has happened since. -/
structure Lifetime (b : Builder) (timeout : Duration) (s : TimedUsage K V) (k : K) (d : Dated K V)
    (later : List (Dated K V)) : Prop where
  /-- It stays for a full timeout, if the next tick comes after the touch. -/
  resident : (∀ w ∈ later, w.scheduled → d.time < w.time) → s.now < d.time + timeout.total →
    s.usage.cache.tables.generationOf? k ≠ none
  /-- Its age is the number of ticks, so that it is gone from the third one on. -/
  age : s.usage.cache.tables.generationOf? k =
    Generation.ofAge? (later.filter Dated.scheduled).length
  /-- The third tick takes it out, and if it has a value, reports this value as expired. A value
  that was stored once is in no other batch, and each listener hears of it once. -/
  third : ∀ before v after, later = before ++ v :: after → v.scheduled →
    (before.filter Dated.scheduled).length = 2 →
    v.visit.found.tables.generationOf? k = some .tertiary ∧
      v.visit.left.tables.generationOf? k = none ∧
      ∀ x, (d.visit.left.tables.find? k).bind Entry.value = some x →
        ∃ values, v.visit.batches = [⟨values, .expired⟩] ∧ x ∈ values ∧
          (s.whole.inserted.count x = 1 →
            s.whole.collected.filter (x ∈ ·.2.values) = [(v.visit, ⟨values, .expired⟩)] ∧
            ∀ l < b.listeners,
              (s.whole.owed l ++ s.whole.heard l).filter (x ∈ ·.2.values) =
                [(v.visit, ⟨values, .expired⟩)] ∧
              (s.whole.ongoing = [] → (s.whole.heard l).filter (x ∈ ·.2.values) =
                [(v.visit, ⟨values, .expired⟩)]))
  /-- It is gone after three periods, if ticks are one period apart, and none that was due by now is
  missing. -/
  gone : ∀ first n, first ≤ d.time + timeout.half →
    s.ticks.map Dated.time = ((List.range n).map fun i => first + timeout.half * i) →
    s.now < first + timeout.half * n → d.time + 3 * timeout.half ≤ s.now →
    s.usage.cache.tables.generationOf? k = none

/-- **An untouched key lives for a full timeout, and not much longer.** A cache was built with this
timeout, and nothing but its scheduler rotates. After its last touch, a key that is not removed
stays until the third tick, which comes no earlier than a timeout after the touch, and if ticks are
punctual, no later than three periods after it. With a timeout that is too short to be halved there
is no scheduler, and such a key never leaves. -/
theorem timed_lifetime [Std.TransOrd K] [Std.LawfulEqOrd K] {b : Builder} {timeout : Duration}
    {began : Nat} {s : TimedUsage K V} (h : Reachable (b.withTimeout timeout) began s) {k : K}
    {earlier later : List (Dated K V)} {d : Dated K V} (resting : s.Resting k earlier d later) :
    (timeout.half = 0 →
      s.scheduler = none ∧ s.usage.cache.tables.generationOf? k = some .primary) ∧
    (0 < timeout.half → Lifetime (b.withTimeout timeout) timeout s k d later) := by
  have hs := h.sound
  have hperiod := hs.period
  have hage := resting.generation_eq hs
  have hticks := resting.ticks_eq hs
  rw [Builder.schedulerPeriod?_withTimeout] at hperiod
  refine ⟨fun hzero => ?_, fun hpos => ⟨?_, hage, ?_, ?_⟩⟩
  · -- there is no scheduler, and so there are no ticks
    rw [if_pos hzero] at hperiod
    have hnone := Option.map_eq_none_iff.mp hperiod
    rw [(hs.unscheduled hnone).2] at hticks
    rw [hage, (List.append_eq_nil_iff.mp hticks.symm).2]
    exact ⟨hnone, rfl⟩
  · intro next young
    rw [if_neg (Nat.pos_iff_ne_zero.mp hpos)] at hperiod
    obtain ⟨sch, hsch, hhalf⟩ := Option.map_eq_some_iff.mp hperiod
    have hspaced := hs.spaced hsch
    rw [hhalf, hticks] at hspaced
    have hle : (later.filter Dated.scheduled).length ≤ 2 := by
      refine length_le_of_spaced (fun w hw => ?_) (List.pairwise_append.mp hspaced).2.1
        (fun w hw => ?_) young
      · obtain ⟨hw, hscheduled⟩ := List.mem_filter.mp hw
        exact next w hw hscheduled
      · exact (hs.past w (resting.mem_dated (List.mem_filter.mp hw).1)).2
    rw [hage]
    exact mt Generation.ofAge?_eq_none.mp (Nat.not_lt.mpr hle)
  · intro before v after hsplit hscheduled hthird
    obtain ⟨hfound, hleft, hvalues⟩ := resting.third_tick hs hsplit hscheduled hthird
    refine ⟨hfound, hleft, fun x hx => ?_⟩
    obtain ⟨values, hbatches, hmem⟩ := hvalues x hx
    refine ⟨values, hbatches, hmem, fun once => hs.whole.reported_once once ?_ hmem⟩
    refine List.mem_flatMap.mpr ⟨v.visit, ?_, by simp [Visit.collected, hbatches]⟩
    rw [show s.whole.history = s.usage.history from rfl, ← hs.visits]
    exact List.mem_map_of_mem (resting.mem_dated (by simp [hsplit]))
  · intro first n soon punctual due old
    have hcount := congrArg List.length punctual
    rw [List.length_map, List.length_map, List.length_range, hticks, List.length_append] at hcount
    rw [← hcount] at due
    have hthree := three_le_of_punctual (resting.punctual_next hs soon punctual) due old
    rw [hage]
    exact Generation.ofAge?_eq_none.mpr hthree

/-- With a timeout of five nanoseconds, a value that is stored at once is gone after six. -/
theorem timed_lifetime_five_nanoseconds :
    let b : Builder := Builder.new.withListener
    let timeout : Duration := ⟨0, 5, by decide, by decide⟩
    ∃ (s : TimedUsage Nat String) (d : Dated Nat String) (later : List (Dated Nat String)),
      Reachable (b.withTimeout timeout) 0 s ∧ s.Resting 7 [] d later ∧ s.now = 6 ∧
        Lifetime (b.withTimeout timeout) timeout s 7 d later ∧
        s.usage.cache.tables.generationOf? 7 = none := by
  intro b timeout
  let s₀ : TimedUsage Nat String := start (b.withTimeout timeout) 0
  obtain ⟨u, hu, hhistory, -⟩ := Usage.leads_in_turn 1 s₀.usage [.insert 7 "seven"]
  obtain ⟨new, hnew, hact⟩ := leads_act s₀ hu
  rw [hnew] at hhistory
  obtain rfl := List.append_cancel_left hhistory
  have hscheduler : s₀.scheduler = some { period := 2, deadline := 2 } := by decide
  obtain ⟨s, later, hl, hnow, -, hdated, hsweeps, htimes⟩ := leads_punctually 1 2
    { s₀ with usage := u, dated := s₀.date false _ } hscheduler (Nat.zero_le 2)
  have hreach : Reachable (b.withTimeout timeout) 0 s := hact.trans hl
  let d : Dated Nat String := ⟨⟨.insert 7 "seven", s₀.usage.cache⟩, 0, false⟩
  have hresting : s.Resting 7 [] d later := by
    refine ⟨hdated, .inr rfl, ?_, ?_, ?_⟩
    · intro w hw
      rw [(hsweeps w hw).1]
      simp [Call.Touches, Call.LooksUp, Call.Stores]
    · intro w hw
      rw [(hsweeps w hw).1]
      exact id
    · intro w hw hne
      rw [hdated] at hw
      rcases List.mem_cons.mp hw with rfl | hw
      · exact absurd rfl hne
      · exact (hsweeps w hw).2
  obtain ⟨-, hlife⟩ := timed_lifetime hreach hresting
  have hlifetime := hlife (by decide)
  refine ⟨s, d, later, hreach, hresting, hnow, hlifetime, ?_⟩
  have hticks := hresting.ticks_eq hreach.sound
  rw [List.filter_nil, List.nil_append,
    List.filter_eq_self.mpr fun w hw => (hsweeps w hw).2] at hticks
  refine hlifetime.gone 2 3 (by decide) ?_ (by rw [hnow]; decide) (by rw [hnow]; decide)
  rw [hticks, htimes]
  decide

end TimedUsage

end GenerationalCache
