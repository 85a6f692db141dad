import GenerationalCache.Distributed.Adapter
import GenerationalCache.Distributed.Operations
import GenerationalCache.Proofs.Visits
import Mathlib.Logic.Relation

/-!
# A distributed cache in conversation

A distributed cache talks to a provider, and the provider talks back: while it is being asked for
something, or of its own accord, it may report changes to the cache, which calls its listeners,
and a listener may call back into the cache. So what is in progress is a stack, that of one thread.
An operation that waits for a reply stays where it is until everything begun in the meantime is
over.

Nothing is assumed of the provider. It may reply in any way, succeed or fail, and report whatever it
likes, and a listener may begin any operation from inside any call. Only a source that is being
asked to open the provider keeps quiet, as it has to.

What an operation does is not described anew: it is the program of the operation, and the machine
performs its actions. The state keeps what has happened, and every operation its own part of it.
-/

namespace GenerationalCache

variable {σ K V : Type} {α β : Type}

namespace Action

/-- The action asks something of an open provider. -/
def isRequest : Action σ K V β → Bool
  | register _ | get _ _ | put _ _ _ | remove _ _ | removeAll _ => true
  | _ => false

/-- The action opens the provider. -/
def isOpening : Action σ K V β → Bool
  | openProvider => true
  | _ => false

/-- The action asks something of the provider or its source. -/
def isOutgoing (action : Action σ K V β) : Bool := action.isOpening || action.isRequest

/-- What an action that concerns only the cache itself answers, and the connection after it. -/
def own? : Action Connection K V β → Connection → Option (β × Connection)
  | access change, c => some (change c)
  | log _, c => some ((), c)
  | _, _ => none

/-- The action asks the provider with this handle for something other than reports. -/
def Uses (h : Handle) : Action σ K V β → Prop
  | get h' _ | put h' _ _ | remove h' _ | removeAll h' => h' = h
  | _ => False

theorem Uses.own?_eq {h : Handle} {action : Action Connection K V β} (hu : action.Uses h)
    (c : Connection) : action.own? c = none := by
  cases action with
  | get | put | remove | removeAll => rfl
  | _ => exact hu.elim

end Action

namespace Call

/-- The operation needs the provider. -/
def NeedsProvider : Call K V → Prop
  | evictStale | evictionRequired => False
  | _ => True

/-- The answer that passes a failure on. -/
def refusal : (c : Call K V) → CacheFailure → c.Answer
  | lookup _, failure | get _, failure | insert _ _, failure | remove _, failure
  | clear, failure => .error failure
  | evictStale, _ => ()
  | evictionRequired, _ => false

end Call

namespace Conversation

/-- A question to the provider or its source, and the reply. -/
structure Exchange (K V : Type) : Type 1 where
  {β : Type}
  /-- The question. -/
  action : Action Connection K V β
  /-- What came back. -/
  reply : β

namespace Exchange

/-- The provider was asked to open. -/
def isOpening (e : Exchange K V) : Bool := e.action.isOpening

/-- The provider that was asked to report. -/
def registering? : Exchange K V → Option Handle
  | ⟨.register h, _⟩ => some h
  | _ => none

/-- The provider that was asked to report, and agreed. -/
def registered? : Exchange K V → Option Handle
  | ⟨.register h, .ok ()⟩ => some h
  | _ => none

/-- The failure of a reply, if it is one. -/
def failure? : Except CacheFailure α → Option CacheFailure
  | .ok _ => none
  | .error failure => some failure

/-- The failure to open the provider, or of the provider to agree to report. -/
def refused? : Exchange K V → Option CacheFailure
  | ⟨.openProvider, reply⟩ => failure? reply
  | ⟨.register _, reply⟩ => failure? reply
  | _ => none

/-- This provider was asked for something other than reports. -/
def Uses (h : Handle) (e : Exchange K V) : Prop := e.action.Uses h

/-- Whatever is asked of a provider that is in use has nothing to do with connecting. -/
theorem Uses.ordinary {h : Handle} {e : Exchange K V} (hu : e.Uses h) :
    e.isOpening = false ∧ e.registering? = none ∧ e.registered? = none ∧ e.refused? = none := by
  obtain ⟨action, reply⟩ := e
  cases action with
  | get | put | remove | removeAll => exact ⟨rfl, rfl, rfl, rfl⟩
  | _ => exact hu.elim

end Exchange

/-- An operation, and the connection when it began. -/
structure Begun (K V : Type) where
  /-- The operation. -/
  call : Call K V
  /-- The connection when it began. -/
  found : Connection

/-- An operation that is over, what it exchanged with the provider and its source, what it answered,
and the connection when it did. -/
structure Answered (K V : Type) : Type 1 extends Begun K V where
  /-- What it exchanged, in order. -/
  trail : List (Exchange K V)
  /-- What it answered. -/
  answer : call.Answer
  /-- The connection when it did. -/
  left : Connection

/-- What is in progress in an operation. -/
inductive Doing (K V α : Type) : Type 1 where
  /-- It runs, and this is left to do. -/
  | running (rest : Program Connection K V α)
  /-- It has asked, and the reply decides how it goes on. -/
  | waiting {β : Type} (action : Action Connection K V β) (next : β → Program Connection K V α)
      (outgoing : action.isOutgoing)

/-- What an operation has left to do, beginning with the question that is open. -/
def Doing.program : Doing K V α → Program Connection K V α
  | running rest => rest
  | waiting action next _ => .step action next

/-- What the operation is asking for, if it is asking, it asks of the provider with this handle. -/
def Doing.Uses (h : Handle) : Doing K V α → Prop
  | running _ => True
  | waiting action _ _ => action.Uses h

/-- Something in progress. -/
inductive Frame (K V : Type) : Type 1 where
  /-- An operation, with what it has exchanged so far. -/
  | operation (o : Begun K V) (trail : List (Exchange K V)) (doing : Doing K V o.call.Answer)
  /-- The call of a listener, and the calls of listeners that come after it. -/
  | listening (delivery : Delivery V) (later : List (Delivery V))

/-- Something may begin inside the frame: in the call of a listener, and in a request. -/
def Frame.Free : Frame K V → Prop
  | operation _ _ (.running _) => False
  | operation _ _ (.waiting action _ _) => action.isRequest
  | listening _ _ => True

/-- What may happen. -/
inductive Event (K V : Type) : Type 1 where
  | began (o : Begun K V)
  | asked {β : Type} (action : Action Connection K V β)
  | replied (e : Exchange K V)
  | reported (kind : EventKind) (changes : List (EntryEvent K))
  | told (delivery : Delivery V)
  | answered (a : Answered K V)

end Conversation

open Conversation in
/-- A distributed cache in use. -/
structure Conversation (K V : Type) : Type 1 where
  /-- What the cache knows of its provider. -/
  connection : Connection := {}
  /-- What is in progress, the innermost first. -/
  stack : List (Frame K V) := []
  /-- What has happened, in order. -/
  history : List (Event K V) := []

namespace Conversation

/-- Goes on with these calls of listeners. -/
def tell (s : Conversation K V) (below : List (Frame K V)) : List (Delivery V) → Conversation K V
  | [] => { s with stack := below }
  | d :: later =>
    { s with stack := .listening d later :: below, history := s.history ++ [.told d] }

/-- One step of a distributed cache in use. -/
inductive Step (serializer : Serializer V) (listeners : Nat) :
    Conversation K V → Conversation K V → Prop where
  /-- A client, or a listener from inside a call, begins an operation. -/
  | begin (s : Conversation K V) (c : Call K V) (free : ∀ f ∈ s.stack, f.Free) :
      Step serializer listeners s { s with
        stack := .operation ⟨c, s.connection⟩ []
          (.running ((Connection.operations serializer listeners).program c)) :: s.stack
        history := s.history ++ [.began ⟨c, s.connection⟩] }
  /-- An operation reads and changes what the cache knows, or writes a line of the log. -/
  | act {s : Conversation K V} {o : Begun K V} {trail : List (Exchange K V)} {β : Type}
      {action : Action Connection K V β} {next : β → Program Connection K V o.call.Answer}
      {below : List (Frame K V)} {done : β × Connection}
      (here : s.stack = .operation o trail (.running (.step action next)) :: below)
      (own : action.own? s.connection = some done) :
      Step serializer listeners s { s with
        connection := done.2
        stack := .operation o trail (.running (next done.1)) :: below }
  /-- An operation asks the provider, or its source. -/
  | ask {s : Conversation K V} {o : Begun K V} {trail : List (Exchange K V)} {β : Type}
      {action : Action Connection K V β} {next : β → Program Connection K V o.call.Answer}
      {below : List (Frame K V)}
      (here : s.stack = .operation o trail (.running (.step action next)) :: below)
      (outgoing : action.isOutgoing) :
      Step serializer listeners s { s with
        stack := .operation o trail (.waiting action next outgoing) :: below
        history := s.history ++ [.asked action] }
  /-- The reply, whatever it is. -/
  | reply {s : Conversation K V} {o : Begun K V} {trail : List (Exchange K V)} {β : Type}
      {action : Action Connection K V β} {next : β → Program Connection K V o.call.Answer}
      {outgoing : action.isOutgoing} {below : List (Frame K V)}
      (here : s.stack = .operation o trail (.waiting action next outgoing) :: below) (answer : β) :
      Step serializer listeners s { s with
        stack := .operation o (trail ++ [⟨action, answer⟩]) (.running (next answer)) :: below
        history := s.history ++ [.replied ⟨action, answer⟩] }
  /-- The provider reports changes. -/
  | report (s : Conversation K V) (kind : EventKind) (changes : List (EntryEvent K))
      (free : ∀ f ∈ s.stack, f.Free) :
      Step serializer listeners s
        (tell { s with history := s.history ++ [.reported kind changes] } s.stack
          (Receipt.ofEvents serializer listeners kind changes).calls)
  /-- A listener returns, and the next one is called. -/
  | heard {s : Conversation K V} {d : Delivery V} {later : List (Delivery V)}
      {below : List (Frame K V)} (here : s.stack = .listening d later :: below) :
      Step serializer listeners s (s.tell below later)
  /-- An operation ends. -/
  | answer {s : Conversation K V} {o : Begun K V} {trail : List (Exchange K V)}
      {a : o.call.Answer} {below : List (Frame K V)}
      (here : s.stack = .operation o trail (.running (.done a)) :: below) :
      Step serializer listeners s { s with
        stack := below
        history := s.history ++ [.answered ⟨o, trail, a, s.connection⟩] }

/-- An operation reads and changes what the cache knows. -/
theorem Step.access {serializer : Serializer V} {listeners : Nat} {s : Conversation K V}
    {o : Begun K V} {trail : List (Exchange K V)} {β : Type} {change : Connection → β × Connection}
    {next : β → Program Connection K V o.call.Answer} {below : List (Frame K V)}
    (here : s.stack = .operation o trail (.running (.step (.access change) next)) :: below) :
    Step serializer listeners s { s with
      connection := (change s.connection).2
      stack := .operation o trail (.running (next (change s.connection).1)) :: below } :=
  .act here rfl

/-- An operation writes a line of the log. -/
theorem Step.log {serializer : Serializer V} {listeners : Nat} {s : Conversation K V}
    {o : Begun K V} {trail : List (Exchange K V)} {e : LogEvent}
    {next : Unit → Program Connection K V o.call.Answer} {below : List (Frame K V)}
    (here : s.stack = .operation o trail (.running (.step (.log e) next)) :: below) :
    Step serializer listeners s { s with
      stack := .operation o trail (.running (next ())) :: below } :=
  .act here rfl

/-- One state may follow another, after any number of steps. -/
def Leads (serializer : Serializer V) (listeners : Nat) :
    Conversation K V → Conversation K V → Prop :=
  Relation.ReflTransGen (Step serializer listeners)

/-- A state of some run that begins with a new cache. -/
def Reachable (serializer : Serializer V) (listeners : Nat) (s : Conversation K V) : Prop :=
  Leads serializer listeners {} s

end Conversation

end GenerationalCache
