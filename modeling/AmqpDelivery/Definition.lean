import AmqpDelivery.Exchange
import AmqpDelivery.Queue
import AmqpDelivery.Settings.Basic

/-!
# Consumer definitions

A definition names everything the engine needs to run one logical consumer: its queue and bindings,
the pool that selects connection and concurrency limit, the prefetch count, whether it runs at all,
and how failed messages are delivered again. Definitions are put together field by field or taken
from settings (`Definition.ofSettings`).
-/

namespace AmqpDelivery

/-- Delay exchange of delayed consumers that name none. -/
def defaultDelayExchange : String := "delayed"

/-- Header with the number of redeliveries, unless a definition names another. -/
def defaultCountHeader : String := "x-retry-count"

/-- Redeliveries before a message is given up. -/
def defaultMaxRedeliveries : UInt32 := 3

/-- Unsettled deliveries a consumer may hold. -/
def defaultPrefetch : UInt16 := 1

/-- Whether a consumer runs. -/
inductive Enable where
  | always (enabled : Bool)
  /-- Asked when the engine starts. -/
  | onStart (predicate : Unit → Bool)

/-- The answer at the time of asking. -/
def Enable.isEnabled : Enable → Bool
  | .always enabled => enabled
  | .onStart predicate => predicate ()

/-- How failed messages are delivered again before they are given up. -/
structure RedeliveryPolicy where
  countHeader : String := defaultCountHeader
  maxRedeliveries : UInt32 := defaultMaxRedeliveries
  delayMs : Option UInt32 := none
deriving DecidableEq

/-- One logical consumer. -/
structure Definition where
  name : String
  queue : Queue
  exchange : Option Exchange := none
  routingKeys : List String := []
  pool : String := defaultPool
  prefetch : UInt16 := defaultPrefetch
  enable : Enable := .always true
  /-- The topology is declared before consuming. -/
  declares : Bool := true
  delayed : Bool := false
  deadLetterOverride : Option String := none
  redelivery : RedeliveryPolicy := {}
  restarts : Bool := true

namespace Definition

/-- A consumer with all defaults. -/
def new (name queue : String) : Definition := { name, queue := { name := queue } }

/-- The effective dead-letter exchange: the override, else the default delay exchange for delayed
consumers, else none. -/
def deadLetterExchange (d : Definition) : Option String :=
  match d.deadLetterOverride, d.delayed with
  | some exchange, _ => some exchange
  | none, true => some defaultDelayExchange
  | none, false => none

/-- Failed messages wait for `ms` milliseconds; makes the consumer delayed. -/
def withRetryDelay (d : Definition) (ms : UInt32) : Definition :=
  { d with delayed := true, redelivery := { d.redelivery with delayMs := some ms } }

/-- The definition with another bound on redeliveries. -/
def withMaxRedeliveries (d : Definition) (n : UInt32) : Definition :=
  { d with redelivery := { d.redelivery with maxRedeliveries := n } }

/-- The definition with another counter header. -/
def withCountHeader (d : Definition) (header : String) : Definition :=
  { d with redelivery := { d.redelivery with countHeader := header } }

/-- The exchange that consumer settings ask for. -/
def exchangeOfSettings (s : ConsumerSettings) : Except Failure (Option Exchange) :=
  match s.exchange with
  | none => .ok none
  | some name => (ExchangeKind.ofWire s.exchangeKind).map fun kind =>
      some { name, kind, durable := s.durable }

/-- The definition that consumer settings describe. -/
def ofSettings (s : ConsumerSettings) : Except Failure Definition :=
  if s.name = "" ∨ s.queue = "" then
    .error (.configuration "consumer requires a name and a queue")
  else
    (exchangeOfSettings s).map fun exchange =>
      { name := s.name
        queue := { name := s.queue, durable := s.durable }
        exchange
        routingKeys := s.routingKeys
        pool := s.pool
        prefetch := s.prefetch
        enable := .always s.enable
        declares := s.declare
        delayed := s.retryDelayMs.isSome
        deadLetterOverride := s.deadLetterExchange
        redelivery :=
          { countHeader := s.redeliveryHeader.getD defaultCountHeader
            maxRedeliveries := s.maxRedeliveries
            delayMs := s.retryDelayMs }
        restarts := s.restartOnFailure }

end Definition

end AmqpDelivery
