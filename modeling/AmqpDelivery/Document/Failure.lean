import AmqpDelivery.Document.Read
import AmqpDelivery.Failure

/-!
# Failures as documents

A failure is read from its label, alone or followed by its details, and written with its label and
its message. The message of a failed connection or stream is left out: it is the network's own.
-/

namespace AmqpDelivery.Document

/-- The failure with the given label and details. -/
def failureOf (label : String) (details : List Json) : Read Failure := do
  let detail (i : Nat) : Json := (details[i]?).getD .null
  let text (i : Nat) : Read String := orElse "" asText (detail i)
  match label with
  | "InternalError" => return .internal
  | "ConfigError" => return .configuration (← text 0)
  | "ConnectionError" => return .connection (← text 0)
  | "ChannelError" => return .channelRefused
  | "ChannelClosedError" => return .closed
  | "ChannelFullError" => return .full
  | "CapacityExceededError" => return .capacity (UInt16.ofNat (← orElse 0 asNat (detail 0)))
  | "TimeoutError" => return .timeout
  | "DeclareExchangeError" => return .exchangeRefused (← text 0)
  | "DeclareQueueError" => return .queueRefused (← text 0)
  | "BindingExchangeToQueueError" => return .bindingRefused (← text 0) (← text 1)
  | "BindingConsumerError" => return .subscriptionRefused (← text 0)
  | "QoSDeclarationError" => return .prefetchRefused (← text 0)
  | "PublishingError" => return .publishing
  | "AckMessageError" => return .ack
  | "NackMessageError" => return .nack
  | "RejectMessageError" => return .reject
  | "UnknownConsumerError" => return .unknownConsumer (← text 0)
  | "DuplicatedConsumerError" => return .duplicateConsumer (← text 0)
  | "ConsumerError" => return .consuming (← text 0)
  | label => bad ("unknown failure " ++ label)

/-- Reads a failure. -/
def asFailure : Json → Read Failure
  | .text label => failureOf label []
  | .array (.text label :: details) => failureOf label details
  | _ => bad "expected a failure"

/-- Writes a failure. -/
def ofFailure (f : Failure) : Json :=
  match f with
  | .connection _ | .consuming _ => Json.ofMembers [("error", .text f.label)]
  | _ => Json.ofMembers [("error", .text f.label), ("message", .text f.message)]

/-- Writes a handler's failure. -/
def ofHandlerFailure (f : HandlerFailure) : Json :=
  Json.ofMembers [("error", .text f.label), ("message", .text f.message)]

/-- Writes a result or the failure in its place. -/
def ofResult {α : Type} (write : α → Json) : Except Failure α → Json
  | .ok a => write a
  | .error f => ofFailure f

/-- Writes the success of what has no result, or the failure in its place. -/
def ofUnit : Except Failure Unit → Json := ofResult fun _ => .text "ok"

end AmqpDelivery.Document
