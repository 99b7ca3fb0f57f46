import AmqpDelivery.Failure
import AmqpDelivery.Field.Value

/-!
# Exchanges

Exchanges a consumer may bind its queue to. A delayed exchange holds a message for the milliseconds
of its delay header and then routes it like the kind named by its `x-delayed-type` argument.
-/

namespace AmqpDelivery

/-- Argument that names the routing of a delayed exchange. -/
def delayedTypeArgument : String := "x-delayed-type"

/-- The broker's type of delayed exchanges. -/
def delayedExchangeType : String := "x-delayed-message"

/-- How an exchange routes. -/
inductive ExchangeKind where
  | direct
  | fanout
  | topic
  | headers
  | delayed
deriving DecidableEq

namespace ExchangeKind

/-- The type sent to the broker. -/
def wire : ExchangeKind → String
  | .direct => "direct"
  | .fanout => "fanout"
  | .topic => "topic"
  | .headers => "headers"
  | .delayed => delayedExchangeType

/-- Every kind. -/
def all : List ExchangeKind := [.direct, .fanout, .topic, .headers, .delayed]

/-- The kind with the given type name. -/
def ofWire (name : String) : Except Failure ExchangeKind :=
  match all.find? (·.wire = name) with
  | some kind => .ok kind
  | none => .error (.configuration (Failure.named "exchange kind" name))

end ExchangeKind

/-- An exchange as it is declared. -/
structure Exchange where
  name : String
  kind : ExchangeKind := .direct
  autoDelete : Bool := false
  durable : Bool := false
  passive : Bool := false
  internal : Bool := false
  arguments : FieldTable := Keyed.empty

/-- The exchange turned into one that delays messages and then routes them as a direct one. -/
def Exchange.directDelayed (e : Exchange) : Exchange :=
  { e with
    kind := .delayed
    arguments := e.arguments.insert delayedTypeArgument (.ofText "direct") }

/-- The exchange with an argument set. -/
def Exchange.withArgument (e : Exchange) (key : String) (value : FieldValue) : Exchange :=
  { e with arguments := e.arguments.insert key value }

end AmqpDelivery
