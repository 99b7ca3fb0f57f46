import AmqpDelivery.Definition

/-!
# Topologies

The exchanges, queues and bindings that are declared before a consumer reads its queue.
`Topology.forConsumer` derives them from a definition, `Topology.install` declares them one after
the other and stops at the first that the broker refuses.
-/

namespace AmqpDelivery

/-- Exchanges, queues and bindings that are installed together. -/
structure Topology where
  exchanges : List Exchange := []
  queues : List Queue := []
  bindings : List Binding := []

namespace Topology

/-- Nothing is declared. -/
def isEmpty (t : Topology) : Bool :=
  t.exchanges.isEmpty && t.queues.isEmpty && t.bindings.isEmpty

/-- The routing keys of a definition, a single empty one when it lists none. -/
def keysOf (d : Definition) : List String :=
  if d.routingKeys.isEmpty then [""] else d.routingKeys

/-- The durable exchange that delays messages and routes them directly. -/
def delayExchange (name : String) : Exchange :=
  ({ name, durable := true } : Exchange).directDelayed

/-- The name of the delay exchange of a delayed consumer. -/
def delayName? (d : Definition) : Option String :=
  if d.delayed then d.deadLetterExchange else none

/-- The queue of a definition. A consumer that is not delayed sends dead letters to its override; a
delayed one leaves the queue as it is, since a dead letter in the delay exchange would come back. -/
def queueOf (d : Definition) : Queue :=
  match d.deadLetterExchange, d.delayed with
  | some exchange, false => { d.queue with deadLetterExchange := some exchange }
  | _, _ => d.queue

/-- The bindings of the queue to the consumer's own exchange. -/
def ownBindings (d : Definition) : List Binding :=
  match d.exchange with
  | some e => (keysOf d).map fun key => ⟨d.queue.name, e.name, key⟩
  | none => []

/-- Everything a consumer relies on: its exchange with one binding per routing key, for a delayed
consumer the delay exchange bound back to the queue, and the queue. -/
def forConsumer (d : Definition) : Topology where
  exchanges := d.exchange.toList ++ ((delayName? d).map delayExchange).toList
  queues := [queueOf d]
  bindings := ownBindings d ++
    ((delayName? d).map fun name => (⟨d.queue.name, name, d.queue.name⟩ : Binding)).toList

end Topology

/-- One declaration of a topology. -/
inductive Declaration where
  | exchange (e : Exchange)
  | queue (q : Queue)
  | binding (b : Binding)

/-- The failure that names a refused declaration. -/
def Declaration.refusal : Declaration → Failure
  | .exchange e => .exchangeRefused e.name
  | .queue q => .queueRefused q.name
  | .binding b => .bindingRefused b.exchange b.queue

namespace Topology

/-- Exchanges first, then queues, then bindings. -/
def declarations (t : Topology) : List Declaration :=
  t.exchanges.map .exchange ++ t.queues.map .queue ++ t.bindings.map .binding

/-- Issues declarations in order; `accepts i` tells whether the broker accepts the one issued after
`i` others. Yields what was issued and whether all of it was accepted. -/
def issue (accepts : Nat → Bool) : Nat → List Declaration → List Declaration × Except Failure Unit
  | _, [] => ([], .ok ())
  | i, d :: rest =>
      if accepts i then
        let (issued, result) := issue accepts (i + 1) rest
        (d :: issued, result)
      else ([d], .error d.refusal)

/-- Installs a topology against a broker that answers as `accepts` says. -/
def install (t : Topology) (accepts : Nat → Bool) : List Declaration × Except Failure Unit :=
  issue accepts 0 t.declarations

end Topology

end AmqpDelivery
