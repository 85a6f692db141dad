import GenerationalCache.Proofs.Courses

/-!
# The books of a distributed cache

An operation counts after its last question and answers without a break, and whatever begins in the
meantime begins while it waits. So at every moment the counters stand at what the operations that
have answered add up to, apart from what the innermost one has just counted; and whatever providers
have been asked for, apart from connecting, was asked by these operations in the order in which they
answered. From this follow all the counts, and that an operation that fails leaves them as they are.
-/

namespace GenerationalCache

variable {K V : Type}

/-- The moments of a history with one more entry. -/
theorem moments_concat {α : Type*} {h earlier later : List α} {x e : α}
    (heq : h ++ [x] = earlier ++ e :: later) :
    (earlier = h ∧ e = x) ∨ ∃ later', h = earlier ++ e :: later' := by
  rcases List.eq_nil_or_concat later with rfl | ⟨later', y, rfl⟩
  · obtain ⟨rfl, hx⟩ := List.append_inj' heq rfl
    exact .inl ⟨rfl, (List.singleton_inj.mp hx).symm⟩
  · refine .inr ⟨later', ?_⟩
    have heq' : h ++ [x] = (earlier ++ e :: later') ++ [y] := by simpa using heq
    exact (List.append_inj' heq' rfl).1

namespace Conversation

/-- What the operation asked of an open provider, apart from connecting. -/
def Answered.services (a : Answered K V) : List (Exchange K V) := a.trail.filter Exchange.isService

namespace Event

/-- What an event adds to the counters: an operation counts when it answers. -/
def counts : Event K V → Counters → Counters
  | answered a => counted a.trail (a.call.value? a.answer)
  | _ => id

/-- A provider has replied to something other than connecting. -/
def service? : Event K V → Option (Exchange K V)
  | replied e => if e.isService then some e else none
  | _ => none

/-- What an operation that has answered asked for. -/
def services : Event K V → List (Exchange K V)
  | answered a => a.services
  | _ => []

theorem filterMap_service_replied (e : Exchange K V) :
    [replied e].filterMap service? = [e].filter Exchange.isService := by
  cases h : e.isService <;> simp [service?, h]

/-- A lookup answered with a value. -/
def isHit : Event K V → Bool
  | answered a => (a.call.value? a.answer).any Option.isSome
  | _ => false

/-- A lookup answered without one. -/
def isMiss : Event K V → Bool
  | answered a => (a.call.value? a.answer).any Option.isNone
  | _ => false

/-- A provider has taken bytes. -/
def isStored : Event K V → Bool
  | replied e => e.isStored
  | _ => false

/-- A provider has removed a key that was there. -/
def isRemoved : Event K V → Bool
  | replied e => e.isRemoved
  | _ => false

end Event

/-- The counters after a history. -/
def tally (history : List (Event K V)) (start : Counters) : Counters :=
  history.foldl (fun c e => e.counts c) start

theorem tally_append (h₁ h₂ : List (Event K V)) (start : Counters) :
    tally (h₁ ++ h₂) start = tally h₂ (tally h₁ start) :=
  List.foldl_append

theorem tally_concat (h : List (Event K V)) (e : Event K V) (start : Counters) :
    tally (h ++ [e]) start = e.counts (tally h start) :=
  tally_append h [e] start

namespace Frame

/-- What an operation in progress has asked for. -/
def pending : Frame K V → List (Exchange K V)
  | operation _ trail _ => trail.filter Exchange.isService
  | listening _ _ => []

/-- An operation is on its course, and has counted this. -/
def OnCourse (serializer : Serializer V) (count : Counters → Counters) : Frame K V → Prop
  | operation o trail doing => Course (Ends serializer o.call) trail count doing.program
  | listening _ _ => count = id

/-- An operation that waits has counted nothing, and asked for nothing before. -/
theorem OnCourse.of_free {serializer : Serializer V} {count : Counters → Counters} {f : Frame K V}
    (h : f.OnCourse serializer count) (free : f.Free) : count = id ∧ f.pending = [] := by
  cases f with
  | listening => exact ⟨h, rfl⟩
  | operation o trail doing =>
      cases doing with
      | running => exact free.elim
      | waiting action next outgoing =>
          cases h with
          | ask _ unserved _ => exact ⟨rfl, unserved⟩
          | access | log => cases outgoing

end Frame

/-- Everything in progress is on its course, and only the innermost has counted anything. -/
def InCourse (serializer : Serializer V) : List (Frame K V) → (Counters → Counters) → Prop
  | [], count => count = id
  | f :: below, count =>
    f.OnCourse serializer count ∧ ∀ g ∈ below, g.Free ∧ g.OnCourse serializer id

namespace InCourse

variable {serializer : Serializer V} {stack below : List (Frame K V)} {f : Frame K V}
  {count : Counters → Counters}

theorem of_free (h : InCourse serializer stack count) (free : ∀ f ∈ stack, f.Free) :
    count = id ∧ ∀ g ∈ stack, g.Free ∧ g.OnCourse serializer id := by
  cases stack with
  | nil => exact ⟨h, List.forall_mem_nil _⟩
  | cons f below =>
      obtain ⟨hf, hbelow⟩ := h
      have hfree := List.forall_mem_cons.mp free
      obtain ⟨rfl, -⟩ := hf.of_free hfree.1
      exact ⟨rfl, List.forall_mem_cons.mpr ⟨⟨hfree.1, hf⟩, hbelow⟩⟩

theorem of_waiting (h : ∀ g ∈ stack, g.Free ∧ g.OnCourse serializer id) :
    InCourse serializer stack id := by
  cases stack with
  | nil => rfl
  | cons f below =>
      obtain ⟨⟨-, hf⟩, hbelow⟩ := List.forall_mem_cons.mp h
      exact ⟨hf, hbelow⟩

theorem pending_eq_nil (h : ∀ g ∈ stack, g.Free ∧ g.OnCourse serializer id) :
    stack.flatMap Frame.pending = [] :=
  List.flatMap_eq_nil_iff.mpr fun g hg => ((h g hg).2.of_free (h g hg).1).2

end InCourse

/-- What an event says of the history before it. -/
def Event.Booked (serializer : Serializer V) (earlier : List (Event K V)) : Event K V → Prop
  | began o => o.found.counters = tally earlier {}
  | answered a => Settled serializer a.call a.trail a.answer ∧
      a.left.counters = tally (earlier ++ [.answered a]) {} ∧
      earlier.filterMap Event.service? = earlier.flatMap Event.services ++ a.services
  | _ => True

/-- What holds at every moment of every run. -/
structure Booked (serializer : Serializer V) (s : Conversation K V) : Prop where
  /-- The counters stand at what has been counted. -/
  counters : ∃ count, InCourse serializer s.stack count ∧
    s.connection.counters = count (tally s.history {})
  /-- Whatever was asked for was asked by the operations. -/
  services : s.history.filterMap Event.service? =
    s.history.flatMap Event.services ++ s.stack.flatMap Frame.pending
  /-- It was so at every earlier moment. -/
  moments : ∀ earlier e later, s.history = earlier ++ e :: later → e.Booked serializer earlier

variable {serializer : Serializer V} {listeners : Nat} {s s' : Conversation K V}

/-- Every answer is settled by what was exchanged for it. -/
theorem Booked.settled (hs : s.Booked serializer) {a : Answered K V}
    (ha : .answered a ∈ s.history) : Settled serializer a.call a.trail a.answer := by
  obtain ⟨earlier, later, heq⟩ := List.append_of_mem ha
  exact (hs.moments _ _ _ heq).1

theorem booked_start : ({} : Conversation K V).Booked serializer where
  counters := ⟨id, rfl, rfl⟩
  services := rfl
  moments := fun earlier e later h => by simp at h

namespace Booked

/-- Whatever can be said of an event when it happens can be said from then on. -/
theorem at_moment (hs : s.Booked serializer) {x e : Event K V} {earlier later : List (Event K V)}
    (heq : s.history ++ [x] = earlier ++ e :: later) (hbooked : x.Booked serializer s.history) :
    e.Booked serializer earlier := by
  rcases moments_concat heq with ⟨rfl, rfl⟩ | ⟨later', h⟩
  · exact hbooked
  · exact hs.moments earlier e later' h

/-- Something happens that is neither a reply nor an answer. -/
theorem note (hs : s.Booked serializer) (e : Event K V) (hcounts : e.counts = id)
    (hservice : e.service? = none) (hservices : e.services = [])
    (hbooked : e.Booked serializer s.history) :
    ({ s with history := s.history ++ [e] } : Conversation K V).Booked serializer where
  counters := by
    obtain ⟨count, hcourse, hcounters⟩ := hs.counters
    refine ⟨count, hcourse, ?_⟩
    rw [tally_concat, hcounts]
    exact hcounters
  services := by
    rw [List.filterMap_append, List.filterMap_cons_none hservice, List.flatMap_append,
      List.flatMap_singleton, hservices]
    simpa using hs.services
  moments _ _ _ heq := hs.at_moment heq hbooked

/-- What is in progress changes, and nothing that it has counted or asked for. -/
theorem goOn (hs : s.Booked serializer) {connection : Connection} {stack : List (Frame K V)}
    (hcounters : ∀ count, InCourse serializer s.stack count →
      s.connection.counters = count (tally s.history {}) →
      ∃ count, InCourse serializer stack count ∧ connection.counters = count (tally s.history {}))
    (hpending : stack.flatMap Frame.pending = s.stack.flatMap Frame.pending) :
    ({ s with connection, stack } : Conversation K V).Booked serializer where
  counters := by
    obtain ⟨count, hcourse, hcount⟩ := hs.counters
    exact hcounters count hcourse hcount
  services := hpending ▸ hs.services
  moments := hs.moments

theorem tell {below : List (Frame K V)}
    (hs : ({ s with stack := below } : Conversation K V).Booked serializer)
    (free : ∀ f ∈ below, f.Free) (ds : List (Delivery V)) :
    (s.tell below ds).Booked serializer := by
  cases ds with
  | nil => exact hs
  | cons d later =>
      refine (hs.note (.told d) rfl rfl rfl trivial).goOn (fun count hcourse hcounters => ?_) rfl
      obtain ⟨rfl, hwaiting⟩ := hcourse.of_free free
      exact ⟨id, ⟨rfl, hwaiting⟩, hcounters⟩

/-- The innermost operation gets its reply. -/
theorem reply (hs : s.Booked serializer) {o : Begun K V} {trail : List (Exchange K V)} {β : Type}
    {action : Action Connection K V β} {next : β → Program Connection K V o.call.Answer}
    {outgoing : action.isOutgoing} {below : List (Frame K V)}
    (here : s.stack = .operation o trail (.waiting action next outgoing) :: below) (answer : β) :
    ({ s with
      stack := .operation o (trail ++ [⟨action, answer⟩]) (.running (next answer)) :: below
      history := s.history ++ [.replied ⟨action, answer⟩] } :
        Conversation K V).Booked serializer := by
  obtain ⟨count, hcourse, hcounters⟩ := hs.counters
  rw [here] at hcourse
  obtain ⟨hwaits, hbelow⟩ := hcourse
  have hnone := InCourse.pending_eq_nil hbelow
  cases hwaits with
  | access | log => cases outgoing
  | ask _ unserved rest =>
      refine ⟨⟨id, ⟨rest answer, hbelow⟩, ?_⟩, ?_, fun _ _ _ heq => hs.at_moment heq trivial⟩
      · rw [tally_concat]
        exact hcounters
      · -- nothing was pending before the reply, so all that is pending after it is the reply
        have hservices := hs.services
        rw [here, List.flatMap_cons, hnone, Frame.pending, unserved, List.append_nil,
          List.append_nil] at hservices
        have hpending : List.flatMap Frame.pending
            (.operation o (trail ++ [⟨action, answer⟩]) (.running (next answer)) :: below) =
            [⟨action, answer⟩].filter Exchange.isService := by
          rw [List.flatMap_cons, hnone, Frame.pending, List.filter_append, unserved]
          exact List.append_nil _
        rw [List.filterMap_append, hservices, List.flatMap_append, hpending,
          Event.filterMap_service_replied]
        simp [Event.services]

/-- The innermost operation answers, and with that it counts. -/
theorem answer (hs : s.Booked serializer) {o : Begun K V} {trail : List (Exchange K V)}
    {a : o.call.Answer} {below : List (Frame K V)}
    (here : s.stack = .operation o trail (.running (.done a)) :: below) :
    ({ s with
      stack := below
      history := s.history ++ [.answered ⟨o, trail, a, s.connection⟩] } :
        Conversation K V).Booked serializer := by
  obtain ⟨count, hcourse, hcounters⟩ := hs.counters
  rw [here] at hcourse
  obtain ⟨hends, hbelow⟩ := hcourse
  have hnone := InCourse.pending_eq_nil hbelow
  have hservices := hs.services
  rw [here, List.flatMap_cons, hnone, List.append_nil] at hservices
  cases hends with
  | done ends =>
      obtain ⟨hsettled, rfl⟩ := ends
      -- what only the operation had counted before is now in the history
      have hleft : s.connection.counters =
          tally (s.history ++ [.answered ⟨o, trail, a, s.connection⟩]) {} := by
        rw [tally_concat]
        exact hcounters
      refine ⟨⟨id, .of_waiting hbelow, hleft⟩, ?_,
        fun _ _ _ heq => hs.at_moment heq ⟨hsettled, hleft, hservices⟩⟩
      rw [List.filterMap_append, hservices, hnone, List.flatMap_append]
      simp [Event.service?, Event.services, Answered.services, Frame.pending]

end Booked

/-- **Every step keeps the books.** -/
theorem booked_step (hs : s.Booked serializer) (hstep : Step serializer listeners s s') :
    s'.Booked serializer := by
  cases hstep with
  | begin c free =>
      -- all that is in progress waits, so the counters stand at what the history says
      obtain ⟨count, hcourse, hcounters⟩ := hs.counters
      obtain ⟨rfl, -⟩ := hcourse.of_free free
      refine (hs.note (.began ⟨c, s.connection⟩) rfl rfl rfl hcounters).goOn ?_ rfl
      intro count hcourse hcounters
      obtain ⟨rfl, hwaiting⟩ := hcourse.of_free free
      exact ⟨id, ⟨course_program serializer listeners c, hwaiting⟩, hcounters⟩
  | @act o trail β action next below done here own =>
      refine hs.goOn (fun count hcourse hcounters => ?_) (by simp [here, Frame.pending])
      rw [here] at hcourse
      obtain ⟨hcourse, hbelow⟩ := hcourse
      cases hcourse with
      | access more counts rest =>
          obtain rfl := Option.some.inj own
          refine ⟨_, ⟨rest s.connection, hbelow⟩, ?_⟩
          rw [counts, hcounters]
          rfl
      | log rest =>
          obtain rfl := Option.some.inj own
          exact ⟨count, ⟨rest, hbelow⟩, hcounters⟩
      | ask outgoing =>
          cases action with
          | access | log => cases outgoing
          | _ => cases own
  | ask here outgoing =>
      refine (hs.note (.asked _) rfl rfl rfl trivial).goOn (fun count hcourse hcounters => ?_) ?_
      · rw [here] at hcourse
        exact ⟨count, hcourse, hcounters⟩
      · simp [here, Frame.pending]
  | reply here answer => exact hs.reply here answer
  | report kind changes free =>
      exact (hs.note (.reported kind changes) rfl rfl rfl trivial).tell free _
  | @heard d later below here =>
      obtain ⟨count, hcourse, -⟩ := hs.counters
      rw [here] at hcourse
      refine Booked.tell (hs.goOn (fun count hcourse hcounters => ?_) ?_)
        (fun g hg => (hcourse.2 g hg).1) later
      · rw [here] at hcourse
        obtain ⟨rfl, hbelow⟩ := hcourse
        exact ⟨id, .of_waiting hbelow, hcounters⟩
      · simp [here, Frame.pending]
  | answer here => exact hs.answer here

theorem Reachable.booked (h : Reachable serializer listeners s) : s.Booked serializer := by
  induction h with
  | refl => exact booked_start
  | tail _ hstep ih => exact booked_step ih hstep

end Conversation

end GenerationalCache
