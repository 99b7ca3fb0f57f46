import AmqpDelivery.Dispatch.Run
import AmqpDelivery.Json.Writer

/-!
# Publishing

Outgoing messages and the properties they are sent with. Three layers of headers lie over each
other: trace context at the bottom, the sender's own headers above it, and the delay on top.
-/

namespace AmqpDelivery

/-- Content type of JSON messages. -/
def jsonContentType : String := "application/json"

/-- Header values a sender may set. -/
inductive HeaderValue where
  | shortString (s : String)
  | longString (s : String)
  | int (n : Int16)
  | longInt (n : Int32)
  | longLongInt (n : Int64)
  | uint (n : UInt32)
deriving DecidableEq

/-- The field value that is sent. -/
def HeaderValue.field : HeaderValue → FieldValue
  | .shortString s => .shortString s
  | .longString s => .ofText s
  | .int n => .shortInt n
  | .longInt n => .longInt n
  | .longLongInt n => .longLongInt n
  | .uint n => .longUInt n

/-- A message to publish. -/
structure Outgoing where
  exchange : String
  routingKey : String
  kind : Option String := none
  payload : ByteArray := ByteArray.empty
  headers : Keyed HeaderValue := Keyed.empty
  delayMs : Option UInt32 := none

namespace Outgoing

/-- A message whose payload is the outcome of a serialization. -/
def ofSerialized (exchange routingKey : String) (payload : Except String ByteArray) :
    Except Failure Outgoing :=
  match payload with
  | .ok bytes => .ok { exchange, routingKey, payload := bytes }
  | .error _ => .error .publishing

/-- A message whose payload is a JSON value. -/
def ofJson (exchange routingKey : String) (value : Json) : Outgoing :=
  { exchange, routingKey, payload := value.write.toUTF8 }

/-- Lays the sender's headers over those already there. -/
def layHeaders (pairs : List (String × HeaderValue)) (headers : FieldTable) : FieldTable :=
  pairs.foldl (fun h e => h.insert e.1 e.2.field) headers

/-- The header table of the message under a trace context. -/
def headerTable (context : List (String × String)) (m : Outgoing) : FieldTable :=
  let below := layHeaders m.headers.entries (Trace.inject context Keyed.empty)
  match m.delayMs with
  | some ms => below.insert delayHeader (delayValue ms)
  | none => below

/-- The properties of the message: content type, type, a fresh message id, and its headers. -/
def properties (context : List (String × String)) (messageId : String) (m : Outgoing) :
    Properties :=
  { contentType := some jsonContentType
    kind := some (m.kind.getD "")
    messageId := some messageId
    headers := some (m.headerTable context) }

/-- The call that publishes the message. -/
def call (context : List (String × String)) (messageId : String) (m : Outgoing) : ChannelCall :=
  .publish m.exchange m.routingKey m.payload (m.properties context messageId)

end Outgoing

end AmqpDelivery
