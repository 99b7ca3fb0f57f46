import AmqpDelivery.Message

/-!
# What to do with a handled message

The outcome of a handler decides which calls are made on the channel that the message arrived on.
A verdict is one call. After a failure the message is rejected once its budget of redeliveries is
spent; before that it is published again with its counter raised, through the delay exchange when
the consumer has a delay and otherwise straight to its queue, and then the delivery itself is
acknowledged, or put back when the publication failed.
-/

namespace AmqpDelivery

/-- Header read by delay exchanges, in milliseconds. -/
def delayHeader : String := "x-delay"

/-- The exchange that routes by queue name. -/
def defaultExchange : String := ""

/-- What a handler asks for. -/
inductive Verdict where
  /-- Done, remove the message. -/
  | ack
  /-- Put the message back. -/
  | requeue
  /-- Remove the message. -/
  | drop
  /-- Reject the message, a dead letter where the queue has an exchange for them. -/
  | reject
deriving DecidableEq

/-- How a handler's run ended. -/
inductive HandlerRun where
  | returned (result : Except HandlerFailure Verdict)
  | panicked

/-- A panic counts as a failure like any other. -/
def HandlerRun.outcome : HandlerRun → Except HandlerFailure Verdict
  | .returned result => result
  | .panicked => .error .panicked

/-- What became of a delivery. -/
inductive Settlement where
  | acked
  | requeued
  | dropped
  | rejected
  /-- Published to the queue with the counter raised, and acknowledged. -/
  | retried
  /-- Published to the delay exchange with the counter raised, and acknowledged. -/
  | delayed
deriving DecidableEq

/-- A call on the channel a message arrived on. -/
inductive ChannelCall where
  | ack (tag : UInt64)
  | nack (tag : UInt64) (requeue : Bool)
  | reject (tag : UInt64) (requeue : Bool)
  | publish (exchange routingKey : String) (payload : ByteArray) (properties : Properties)

/-- The call that carries out a verdict. -/
def Verdict.call (tag : UInt64) : Verdict → ChannelCall
  | .ack => .ack tag
  | .requeue => .nack tag true
  | .drop => .nack tag false
  | .reject => .reject tag false

/-- The settlement that a verdict leads to. -/
def Verdict.settlement : Verdict → Settlement
  | .ack => .acked
  | .requeue => .requeued
  | .drop => .dropped
  | .reject => .rejected

/-- A delay as a header value, cut off at the greatest signed 32-bit number. -/
def delayValue (ms : UInt32) : FieldValue :=
  .longInt (Int32.ofNat (min ms.toNat 0x7FFFFFFF))

/-- Sets the delay, or removes one that is there. -/
def setDelay (headers : FieldTable) : Option UInt32 → FieldTable
  | some ms => headers.insert delayHeader (delayValue ms)
  | none => headers.erase delayHeader

/-- The headers of a message published again: the counter raised to `count`, the delay set or
removed. -/
def retryHeaders (headers : FieldTable) (countHeader : String) (count : UInt32)
    (delay : Option UInt32) : FieldTable :=
  setDelay (headers.insert countHeader (.longLongInt (Int64.ofNat count.toNat))) delay

/-- The properties of a message published again. -/
def retryProperties (p : Properties) (countHeader : String) (count : UInt32)
    (delay : Option UInt32) : Properties :=
  { p with headers := some (retryHeaders p.headerTable countHeader count delay) }

/-- Where a failed message goes. -/
structure Route where
  exchange : String
  delay : Option UInt32
  settlement : Settlement
deriving DecidableEq

/-- The delay exchange when the consumer is delayed and has a delay, otherwise the queue itself. -/
def retryRoute (d : Definition) : Route :=
  match d.delayed, d.redelivery.delayMs, d.deadLetterExchange with
  | true, some delay, some exchange => ⟨exchange, some delay, .delayed⟩
  | _, _, _ => ⟨defaultExchange, none, .retried⟩

/-- The publication of a failed message. -/
def retryCall (d : Definition) (m : Message) : ChannelCall :=
  .publish (retryRoute d).exchange d.queue.name m.payload
    (retryProperties m.properties d.redelivery.countHeader (m.retryCount d.redelivery + 1)
      (retryRoute d).delay)

/-- The calls to make. -/
inductive Plan where
  /-- One call settles the message. -/
  | settle (verdict : Verdict)
  /-- Publish again, then acknowledge, or put back if the publication failed. -/
  | republish (call : ChannelCall) (settlement : Settlement)

/-- What follows from a handler's outcome. -/
def Plan.of (d : Definition) (m : Message) : Except HandlerFailure Verdict → Plan
  | .ok verdict => .settle verdict
  | .error _ =>
      if d.redelivery.maxRedeliveries ≤ m.retryCount d.redelivery then .settle .reject
      else .republish (retryCall d m) (retryRoute d).settlement

end AmqpDelivery
