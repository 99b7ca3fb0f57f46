import AmqpDelivery.Producer
import AmqpDelivery.Rendezvous.Basic
import AmqpDelivery.Rendezvous.Correlation

/-!
# Requests over connections

Every connection numbers its requests from one and has a rendezvous of its own, where each request
waits under its number. The number travels as the correlation id of the request and comes back with
the reply, which is routed to the request that waits under it on the same connection.
-/

namespace AmqpDelivery.Rendezvous

variable {α : Type}

/-- How long a request waits for its reply, unless told otherwise. -/
def defaultTimeoutMs : Nat := 5000

/-- The properties of a request. -/
def requestProperties (id : UInt64) (replyQueue : String) : Properties :=
  { contentType := some jsonContentType
    correlationId := some (correlationText id)
    replyTo := some replyQueue }

/-- The requests of one connection. -/
structure Line (α : Type) where
  /-- The connection can be used. -/
  live : Bool := true
  /-- The number of the next request. -/
  nextId : UInt64 := 1
  desk : State α := State.empty

/-- What happens on a connection. -/
inductive LineEvent (α : Type) where
  /-- A task makes a request. -/
  | call (t : TaskId) (timeoutMs : Nat)
  /-- A reply arrives; a task hands it over. -/
  | reply (t : TaskId) (properties : Properties) (value : α)
  /-- The connection is found unusable. -/
  | lose
  /-- A task sets out to fail everything that waits. -/
  | closeAll (t : TaskId)
  /-- A task that is there goes on, or time passes. -/
  | within (e : Event α)

namespace Line

/-- Lets something happen at the rendezvous. -/
def apply (l : Line α) (e : Event α) : Line α := { l with desk := l.desk.step e }

/-- A task makes a request: it is declined on a connection that cannot be used, and otherwise takes
the next number. -/
def call (l : Line α) (t : TaskId) (timeoutMs : Nat) : Line α :=
  match l.desk.tasks t, l.live with
  | some _, _ => l
  | none, false => l.apply (.spawn t .decline)
  | none, true =>
      { l.apply (.spawn t (.request l.nextId timeoutMs)) with nextId := l.nextId + 1 }

/-- One step of a run. -/
def step (l : Line α) : LineEvent α → Line α
  | .call t timeoutMs => l.call t timeoutMs
  | .reply t properties value => l.apply (.spawn t (.route (correlationId? properties) value))
  | .lose => { l with live := false }
  | .closeAll t => l.apply (.spawn t .closeAll)
  | .within (.spawn _ _) => l
  | .within e => l.apply e

end Line

/-- The requests of every connection. -/
abbrev Lines (α : Type) := Nat → Line α

/-- One step on one of the connections. -/
def Lines.step (ls : Lines α) (e : Nat × LineEvent α) : Lines α :=
  assign ls e.1 ((ls e.1).step e.2)

/-- The connections after a list of steps. -/
def Lines.run (ls : Lines α) (events : List (Nat × LineEvent α)) : Lines α :=
  events.foldl Lines.step ls

end AmqpDelivery.Rendezvous
