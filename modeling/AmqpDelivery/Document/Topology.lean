import AmqpDelivery.Document.Failure
import AmqpDelivery.Document.Settings
import AmqpDelivery.Document.Value
import AmqpDelivery.Topology

/-!
# Definitions and topologies as documents

Exchanges, queues, bindings and consumer definitions are read from their names and a list of
instructions that are followed one after the other, and written with all that they come to.
-/

namespace AmqpDelivery.Document

/-- A reader that may also meet a failure of the library. -/
abbrev Build := ExceptT Failure Read

/-- Writes what was built or the failure met on the way. -/
def ofBuild {α : Type} (write : α → Json) (b : Build α) : Read Json :=
  return ofResult write (← b.run)

/-- Follows an instruction on an exchange. -/
def exchangeOp (e : Exchange) (o : Op) : Build Exchange := do
  match o.name with
  | "kind" =>
      match ExchangeKind.ofWire (← (o.text 0 : Read _)) with
      | .ok kind => return { e with kind }
      | .error f => throw f
  | "fanout" => return { e with kind := .fanout }
  | "topic" => return { e with kind := .topic }
  | "direct_delayed" => return e.directDelayed
  | "param" => return e.withArgument (← (o.text 0 : Read _)) (← (asValue (o.arg 1) : Read _))
  | "delete" => return { e with autoDelete := true }
  | "durable" => return { e with durable := true }
  | "passive" => return { e with passive := true }
  | "internal" => return { e with internal := true }
  | _ => (o.unknown : Read _)

/-- Reads an exchange. -/
def asExchange (j : Json) : Build Exchange := do
  (← (asOps j : Read _)).foldlM exchangeOp { name := ← (textOr "" j "name" : Read _) }

/-- Follows an instruction on a queue. -/
def queueOp (q : Queue) (o : Op) : Read Queue := do
  match o.name with
  | "durable" => return { q with durable := true }
  | "delete" => return { q with autoDelete := true }
  | "exclusive" => return { q with exclusive := true }
  | "passive" => return { q with passive := true }
  | "ttl" => return { q with ttl := some (Int32.ofInt (← asInt (o.arg 0))) }
  | "max_length" => return { q with maxLength := some (Int32.ofInt (← asInt (o.arg 0))) }
  | "dead_letter_exchange" => return { q with deadLetterExchange := some (← o.text 0) }
  | "dead_letter_routing_key" => return { q with deadLetterRoutingKey := some (← o.text 0) }
  | _ => o.unknown

/-- Reads a queue. -/
def asQueue (j : Json) : Read Queue := do
  (← asOps j).foldlM queueOp { name := ← textOr "" j "name" }

/-- Follows an instruction on a binding. -/
def bindingOp (b : Binding) (o : Op) : Read Binding := do
  match o.name with
  | "exchange" => return { b with exchange := ← o.text 0 }
  | "routing_key" => return { b with routingKey := ← o.text 0 }
  | _ => o.unknown

/-- Reads a binding. -/
def asBinding (j : Json) : Read Binding := do
  (← asOps j).foldlM bindingOp { queue := ← textOr "" j "queue" }

/-- Follows an instruction on a topology. -/
def topologyOp (t : Topology) (o : Op) : Build Topology := do
  match o.name with
  | "exchange" => return { t with exchanges := t.exchanges ++ [← asExchange (o.arg 0)] }
  | "queue" => return { t with queues := t.queues ++ [← (asQueue (o.arg 0) : Read _)] }
  | "binding" => return { t with bindings := t.bindings ++ [← (asBinding (o.arg 0) : Read _)] }
  | _ => (o.unknown : Read _)

/-- Follows an instruction on a definition. -/
def definitionOp (d : Definition) (o : Op) : Build Definition := do
  let text : Build String := (o.text 0 : Read _)
  let bool : Build Bool := (o.bool 0 : Read _)
  let nat : Build Nat := (o.nat 0 : Read _)
  match o.name with
  | "queue" => return { d with queue := ← (asQueue (o.arg 0) : Read _) }
  | "exchange" => return { d with exchange := some (← asExchange (o.arg 0)) }
  | "routing_key" => return { d with routingKeys := d.routingKeys ++ [← text] }
  | "pool" => return { d with pool := ← text }
  | "prefetch" => return { d with prefetch := UInt16.ofNat (← nat) }
  | "enable" => return { d with enable := .always (← bool) }
  | "enable_when" => do
      let b ← bool
      return { d with enable := .onStart fun _ => b }
  | "enable_default" => return { d with enable := .always true }
  | "declare" => return { d with declares := ← bool }
  | "delayed" => return { d with delayed := true }
  | "with_dead_letter_exchange" => return { d with deadLetterOverride := some (← text) }
  | "retry_delay" => return d.withRetryDelay (UInt32.ofNat (← nat))
  | "max_redeliveries" => return d.withMaxRedeliveries (UInt32.ofNat (← nat))
  | "retry_count_header" => return d.withCountHeader (← text)
  | "restart_on_failure" => return { d with restarts := ← bool }
  | _ => (o.unknown : Read _)

/-- Reads a definition: from settings, or from its names and instructions. -/
def asDefinition (j : Json) : Build Definition := do
  match j.member? "config" with
  | some settings =>
      match Definition.ofSettings (← (asConsumerSettings settings : Read _)) with
      | .ok d => return d
      | .error f => throw f
  | none =>
      let name ← (textOr "" j "name" : Read _)
      let queue ← (textOr "" j "queue" : Read _)
      (← (asOps j : Read _)).foldlM definitionOp (Definition.new name queue)

/-- The name of a kind of exchange. -/
def kindName : ExchangeKind → String
  | .direct => "Direct"
  | .fanout => "Fanout"
  | .topic => "Topic"
  | .headers => "Headers"
  | .delayed => "XMessageDelayed"

/-- The type that an exchange is declared with; one that brokers do not have by themselves is marked
as custom. -/
def wireName : ExchangeKind → String
  | .delayed => "custom:" ++ ExchangeKind.delayed.wire
  | kind => kind.wire

/-- Writes a kind of exchange. -/
def ofKind (kind : ExchangeKind) : Json :=
  Json.ofMembers [("kind", .text (kindName kind)), ("wire", .text (wireName kind))]

/-- Writes an exchange. -/
def ofExchange (e : Exchange) : Json :=
  Json.ofMembers [("name", .text e.name), ("kind", .text (kindName e.kind)),
    ("wire", .text (wireName e.kind)), ("delete", .bool e.autoDelete),
    ("durable", .bool e.durable), ("passive", .bool e.passive), ("internal", .bool e.internal),
    ("params", ofTable e.arguments)]

/-- Writes a queue. -/
def ofQueue (q : Queue) : Json :=
  Json.ofMembers [("name", .text q.name), ("durable", .bool q.durable),
    ("delete", .bool q.autoDelete), ("exclusive", .bool q.exclusive), ("passive", .bool q.passive),
    ("arguments", ofTable q.arguments)]

/-- Writes a binding. -/
def ofBinding (b : Binding) : Json :=
  Json.ofMembers [("queue", .text b.queue), ("exchange", .text b.exchange),
    ("routing_key", .text b.routingKey)]

/-- Writes a topology. -/
def ofTopology (t : Topology) : Json :=
  Json.ofMembers [("exchanges", .array (t.exchanges.map ofExchange)),
    ("queues", .array (t.queues.map ofQueue)), ("bindings", .array (t.bindings.map ofBinding))]

/-- Writes a definition and the topology derived from it. -/
def ofDefinition (d : Definition) : Json :=
  Json.ofMembers [("name", .text d.name), ("queue_name", .text d.queue.name),
    ("pool", .text d.pool), ("prefetch", Json.ofNat d.prefetch.toNat),
    ("enabled", .bool d.enable.isEnabled), ("delayed", .bool d.delayed),
    ("declare", .bool d.declares), ("restart", .bool d.restarts),
    ("dead_letter_exchange", optional .text d.deadLetterExchange),
    ("redelivery", Json.ofMembers [("count_header", .text d.redelivery.countHeader),
      ("max_redeliveries", Json.ofNat d.redelivery.maxRedeliveries.toNat),
      ("delay_ms", optional (fun n => Json.ofNat n.toNat) d.redelivery.delayMs)]),
    ("queue", ofQueue d.queue), ("exchange", optional ofExchange d.exchange),
    ("routing_keys", .array (d.routingKeys.map .text)),
    ("topology", ofTopology (Topology.forConsumer d))]

end AmqpDelivery.Document
