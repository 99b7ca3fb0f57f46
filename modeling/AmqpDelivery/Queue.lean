import AmqpDelivery.Field.Value

/-!
# Queues and bindings

A queue as it is declared, with the arguments that decide where the broker sends messages that
expire or are rejected, and the bindings that attach queues to exchanges.
-/

namespace AmqpDelivery

/-- Argument that names the dead-letter exchange of a queue. -/
def deadLetterExchangeArgument : String := "x-dead-letter-exchange"

/-- Argument that names the routing key of dead letters. -/
def deadLetterRoutingKeyArgument : String := "x-dead-letter-routing-key"

/-- Argument with the time to live of messages in milliseconds. -/
def messageTtlArgument : String := "x-message-ttl"

/-- Argument with the greatest number of messages. -/
def maxLengthArgument : String := "x-max-length"

/-- A queue as it is declared. -/
structure Queue where
  name : String
  durable : Bool := false
  autoDelete : Bool := false
  exclusive : Bool := false
  passive : Bool := false
  ttl : Option Int32 := none
  maxLength : Option Int32 := none
  deadLetterExchange : Option String := none
  deadLetterRoutingKey : Option String := none
deriving DecidableEq

/-- Files an optional value. -/
def FieldTable.insertOption (t : FieldTable) (key : String) (value : Option FieldValue) :
    FieldTable :=
  match value with
  | some v => t.insert key v
  | none => t

/-- The arguments of the declaration. -/
def Queue.arguments (q : Queue) : FieldTable :=
  (((FieldTable.insertOption Keyed.empty deadLetterExchangeArgument
      (q.deadLetterExchange.map .ofText)).insertOption deadLetterRoutingKeyArgument
      (q.deadLetterRoutingKey.map .ofText)).insertOption messageTtlArgument
      (q.ttl.map .longInt)).insertOption maxLengthArgument (q.maxLength.map .longInt)

/-- A queue attached to an exchange under a routing key. -/
structure Binding where
  queue : String
  exchange : String := ""
  routingKey : String := ""
deriving DecidableEq

end AmqpDelivery
