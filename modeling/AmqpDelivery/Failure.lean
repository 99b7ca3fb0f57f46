import AmqpDelivery.Decimal.Natural
import AmqpDelivery.Text.Quoted

/-!
# Failures of the engine

`Failure` lists every way in which the infrastructure can let the engine down: configuration,
connections and channels, wait slots, declarations, settlements and the registry of consumers. What
user code does wrong is a `HandlerFailure`; it never leaves the dispatch of the message.
-/

namespace AmqpDelivery

/-- A failure of the infrastructure. -/
inductive Failure where
  | internal
  | configuration (text : String)
  | connection (text : String)
  | channelRefused
  | closed
  | full
  | capacity (limit : UInt16)
  | timeout
  | exchangeRefused (name : String)
  | queueRefused (name : String)
  | bindingRefused (exchange queue : String)
  | subscriptionRefused (queue : String)
  | prefetchRefused (consumer : String)
  | publishing
  | ack
  | nack
  | reject
  | unknownConsumer (name : String)
  | duplicateConsumer (name : String)
  | consuming (text : String)
deriving DecidableEq

namespace Failure

/-- A name between backquotes, as every message that names something ends. -/
def named (text name : String) : String := text ++ " `" ++ name ++ "`"

/-- The message of a failure. -/
def message : Failure → String
  | .internal => "internal error"
  | .configuration text => named "invalid configuration" text
  | .connection text => named "failure to connect" text
  | .channelRefused => "failure to create a channel"
  | .closed => "channel closed"
  | .full => "channel is full"
  | .capacity limit => named "channel capacity exceeded" (Decimal.ofNat limit.toNat)
  | .timeout => "timeout waiting for channel"
  | .exchangeRefused name => named "failure to declare an exchange" name
  | .queueRefused name => named "failure to declare a queue" name
  | .bindingRefused exchange queue =>
      named (named "failure to binding exchange" exchange ++ " to queue") queue
  | .subscriptionRefused queue => named "failure to declare consumer" queue
  | .prefetchRefused consumer => named "failure to configure qos" consumer
  | .publishing => "failure to publish"
  | .ack => "failure to ack message"
  | .nack => "failure to nack message"
  | .reject => "failure to reject message"
  | .unknownConsumer name => named "unknown consumer" name
  | .duplicateConsumer name => named "consumer" name ++ " already registered"
  | .consuming text => named "failure to consume message" text

/-- The name under which a failure is reported. -/
def label : Failure → String
  | .internal => "InternalError"
  | .configuration _ => "ConfigError"
  | .connection _ => "ConnectionError"
  | .channelRefused => "ChannelError"
  | .closed => "ChannelClosedError"
  | .full => "ChannelFullError"
  | .capacity _ => "CapacityExceededError"
  | .timeout => "TimeoutError"
  | .exchangeRefused _ => "DeclareExchangeError"
  | .queueRefused _ => "DeclareQueueError"
  | .bindingRefused _ _ => "BindingExchangeToQueueError"
  | .subscriptionRefused _ => "BindingConsumerError"
  | .prefetchRefused _ => "QoSDeclarationError"
  | .publishing => "PublishingError"
  | .ack => "AckMessageError"
  | .nack => "NackMessageError"
  | .reject => "RejectMessageError"
  | .unknownConsumer _ => "UnknownConsumerError"
  | .duplicateConsumer _ => "DuplicatedConsumerError"
  | .consuming _ => "ConsumerError"

/-- What a failure carries besides its label, as literals. -/
def details : Failure → List String
  | .configuration text | .connection text | .consuming text => [Text.quoted text]
  | .exchangeRefused name | .queueRefused name | .subscriptionRefused name
  | .prefetchRefused name | .unknownConsumer name | .duplicateConsumer name => [Text.quoted name]
  | .bindingRefused exchange queue => [Text.quoted exchange, Text.quoted queue]
  | .capacity limit => [Decimal.ofNat limit.toNat]
  | _ => []

/-- The label with its details in parentheses, the form used in diagnostics. -/
def diagnostic (f : Failure) : String :=
  match f.details with
  | [] => f.label
  | details => f.label ++ "(" ++ String.intercalate ", " details ++ ")"

end Failure

/-- A failure of user code. -/
inductive HandlerFailure where
  | payload (text : String)
  | failed (text : String)
  | panicked
deriving DecidableEq

namespace HandlerFailure

/-- The message of a handler's failure. -/
def message : HandlerFailure → String
  | .payload text => Failure.named "failure to parse payload" text
  | .failed text => Failure.named "handler failure" text
  | .panicked => "handler panicked"

/-- The name under which a handler's failure is reported. -/
def label : HandlerFailure → String
  | .payload _ => "Payload"
  | .failed _ => "Failure"
  | .panicked => "Panicked"

end HandlerFailure

end AmqpDelivery
