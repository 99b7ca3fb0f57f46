import AmqpDelivery.Definition
import AmqpDelivery.Field.Properties
import AmqpDelivery.Json.Reader
import AmqpDelivery.Json.Record

/-!
# Delivered messages

What the broker delivers, the message a handler sees, and how often that message has been delivered
again before (`Message.retryCount`): the greatest of three counters that the engine, dead-lettering
and quorum queues keep in the headers.
-/

namespace AmqpDelivery

/-- Header in which dead-lettering keeps its history. -/
def deathHeader : String := "x-death"

/-- Counter within an entry of that history. -/
def deathCountField : String := "count"

/-- Counter that quorum queues keep. -/
def deliveryCountHeader : String := "x-delivery-count"

/-- A message as the broker delivers it. -/
structure Delivery where
  tag : UInt64
  exchange : String := ""
  routingKey : String := ""
  redelivered : Bool := false
  payload : ByteArray := ByteArray.empty
  properties : Properties := {}

/-- A message as a handler sees it. -/
structure Message where
  consumer : String
  exchange : String := ""
  routingKey : String := ""
  kind : String := ""
  tag : UInt64 := 0
  redelivered : Bool := false
  payload : ByteArray := ByteArray.empty
  properties : Properties := {}

namespace Message

/-- The message of a delivery to `consumer`. -/
def ofDelivery (consumer : String) (d : Delivery) : Message :=
  { consumer
    exchange := d.exchange
    routingKey := d.routingKey
    kind := d.properties.kind.getD ""
    tag := d.tag
    redelivered := d.redelivered
    payload := d.payload
    properties := d.properties }

/-- The message with another header table. -/
def withHeaders (m : Message) (headers : FieldTable) : Message :=
  { m with properties := { m.properties with headers := some headers } }

/-- The header table, empty when the message has none. -/
def headers (m : Message) : FieldTable := m.properties.headerTable

/-- The payload as a JSON value. -/
def json (m : Message) : Except HandlerFailure Json :=
  (Json.ofBytes m.payload).mapError .payload

/-- The payload as a JSON record. -/
def record (m : Message) (shape : Json.RecordShape) : Except HandlerFailure UInt32 :=
  (Json.readRecordWhole shape m.payload).mapError .payload

end Message

/-- The counter in the first entry of the dead-letter history. -/
def deathCount? (headers : FieldTable) : Option Int := do
  let deaths ← (← headers.get? deathHeader).items?
  let entry ← (← deaths.head?).entries?
  (← Entries.find? deathCountField entry).integer?

/-- The counter that a header holds. -/
def counter? (headers : FieldTable) (name : String) : Option Int := do
  (← headers.get? name).integer?

/-- The counters that can be read from the headers. -/
def readableCounters (headers : FieldTable) (policy : RedeliveryPolicy) : List Int :=
  [counter? headers policy.countHeader, deathCount? headers,
    counter? headers deliveryCountHeader].filterMap id

/-- A count brought into the range of 32 bits without sign. -/
def clampCount (n : Int) : UInt32 := UInt32.ofNat (min n.toNat (UInt32.size - 1))

/-- How often a message with these headers was delivered again: its greatest readable counter. -/
def retryCountOf (headers : FieldTable) (policy : RedeliveryPolicy) : UInt32 :=
  match (readableCounters headers policy).max? with
  | some n => clampCount n
  | none => 0

/-- How often the message was delivered again; zero when it has no headers. -/
def Message.retryCount (m : Message) (policy : RedeliveryPolicy) : UInt32 :=
  match m.properties.headers with
  | some headers => retryCountOf headers policy
  | none => 0

end AmqpDelivery
