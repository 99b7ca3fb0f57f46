import AmqpDelivery.Document.Topology
import AmqpDelivery.Producer
import AmqpDelivery.Simulation.Handler

/-!
# Messages as documents

Messages, the calls a dispatch makes on its channel, spans, scripts of handlers, and messages to
publish.
-/

namespace AmqpDelivery.Document

/-- The members of a message. -/
def messageMembers (m : Message) : List (String × Json) :=
  [("consumer", .text m.consumer), ("exchange", .text m.exchange),
    ("routing_key", .text m.routingKey), ("msg_type", .text m.kind), ("tag", ofUInt64 m.tag),
    ("redelivered", .bool m.redelivered), ("data", ofBytes m.payload),
    ("properties", ofProperties m.properties)]

/-- Writes a message. -/
def ofMessage (m : Message) : Json := Json.ofMembers (messageMembers m)

/-- Writes a call. -/
def ofCall : ChannelCall → Json
  | .ack tag => .array [.text "ack", ofUInt64 tag]
  | .nack tag requeue => .array [.text "nack", ofUInt64 tag, .bool requeue]
  | .reject tag requeue => .array [.text "reject", ofUInt64 tag, .bool requeue]
  | .publish exchange key payload p =>
      .array [.text "publish", .text exchange, .text key, ofBytes payload, ofProperties p]

/-- The name of a settlement. -/
def settlementName : Settlement → String
  | .acked => "Acked"
  | .requeued => "Requeued"
  | .dropped => "Dropped"
  | .rejected => "Rejected"
  | .retried => "Retried"
  | .delayed => "Delayed"

/-- Writes a span. -/
def ofSpan (s : Span) : Json :=
  Json.ofMembers [("tracer", .text Trace.tracer), ("name", .text s.name),
    ("kind", .text "Consumer"), ("parent", optional .text s.parent),
    ("errors", .array (s.errors.map .text)),
    ("status", match s.status with
      | .ok => .text "Ok"
      | .failed description => Json.ofMembers [("Error", .text description)])]

/-- A member that is set to something else than null. -/
def isSet (j : Json) (key : String) : Bool :=
  match j.member? key with
  | none | some .null => false
  | some _ => true

/-- Reads how a handler ends; the first of the members that is set decides. -/
def asEnding (j : Json) : Read HandlerEnding := do
  if ← boolOr false j "hang" then return .never
  else if isSet j "fail" then return .fails (.failed (← textOr "" j "fail"))
  else if isSet j "payload_error" then return .fails (.payload (← textOr "" j "payload_error"))
  else if isSet j "panic" then return .panics
  else if ← boolOr false j "panicked" then return .fails .panicked
  else
    let verdict : Verdict :=
      match field j "verdict" with
      | .text "Requeue" => .requeue
      | .text "Drop" => .drop
      | .text "Reject" => .reject
      | _ => .ack
    return .returns verdict (← boolOr false j "json")

/-- Reads what a handler does with one message. -/
def asScript (j : Json) : Read HandlerScript := return ⟨← asEnding j⟩

/-- Reads the failures with which a channel answers some of its calls. -/
def asAnswers (faults : Json) : Read ChannelAnswers := do
  let fault (key : String) : Read (Except Failure Unit) := do
    match ← asOption asFailure (field faults key) with
    | some f => return .error f
    | none => return .ok ()
  let ack ← fault "ack"
  let nack ← fault "nack"
  let reject ← fault "reject"
  let publish ← fault "publish"
  return fun
    | .ack _ => ack
    | .nack _ _ => nack
    | .reject _ _ => reject
    | .publish _ _ _ _ => publish

/-- Reads a header of a message to publish: its key, its type and its value. -/
def asHeader : Json → Read (String × HeaderValue)
  | .array [key, kind, v] => do
      let key ← asText key
      match ← asText kind with
      | "ShortString" => return (key, .shortString (← asText v))
      | "LongString" => return (key, .longString (← asText v))
      | "Int" => return (key, .int (Int16.ofInt (← asInt v)))
      | "LongInt" => return (key, .longInt (Int32.ofInt (← asInt v)))
      | "LongLongInt" => return (key, .longLongInt (Int64.ofInt (← asInt v)))
      | "Uint" => return (key, .uint (UInt32.ofNat (← asNat v)))
      | kind => bad ("unknown header type " ++ kind)
  | _ => bad "expected a header"

/-- Reads the trace context under which a message is published. -/
def asContext (j : Json) : Read (List (String × String)) := do
  return ((← asOption asText (field j "trace")).map fun t => ("TraceParent", t)).toList

/-- Reads a message to publish. One marked as not serializable stands for a value that has no JSON
form. -/
def asOutgoing (j : Json) : Build Outgoing := do
  let exchange ← (textOr "" j "exchange" : Read _)
  let key ← (textOr "" j "routing_key" : Read _)
  let base : Outgoing ←
    match ← (boolOr false j "unserializable" : Read _), j.member? "json" with
    | true, _ =>
        match Outgoing.ofSerialized exchange key (.error "key must be a string") with
        | .ok m => pure m
        | .error f => throw f
    | false, some v => pure (Outgoing.ofJson exchange key v)
    | false, none => do
        pure { exchange, routingKey := key, payload := ← (asBytes (field j "data") : Read _) }
  let headers ← (do (← listOr j "headers").mapM asHeader : Read _)
  return { base with
    kind := ← (asOption asText (field j "msg_type") : Read _)
    headers := Keyed.ofList headers
    delayMs := (← (asOption asNat (field j "delay") : Read _)).map UInt32.ofNat }

end AmqpDelivery.Document
