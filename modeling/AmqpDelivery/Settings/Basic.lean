import AmqpDelivery.Failure
import AmqpDelivery.Keyed

/-!
# Settings

Typed settings with their defaults: broker connections and concurrency limits by pool, and consumers
declared in configuration.
-/

namespace AmqpDelivery

/-- Pool of consumers that name none. -/
def defaultPool : String := "default"

/-- Concurrency limit of pools without one of their own. -/
def defaultConcurrencyLimit : UInt64 := 10

/-- How often and how fast a broken connection is dialed again. -/
structure ReconnectSettings where
  initialIntervalMs : UInt64 := 500
  maxIntervalMs : UInt64 := 30000
  /-- Zero means no bound. -/
  maxAttempts : UInt32 := 0
deriving DecidableEq

/-- Connection of one pool. -/
structure BrokerSettings where
  host : String := "localhost"
  port : UInt16 := 5672
  vhost : String := "/"
  user : String := "guest"
  password : String := "guest"
  /-- Seconds between heartbeats, zero for none. -/
  heartbeat : UInt16 := 60
  /-- Channels that may be open on one connection. -/
  maxChannels : UInt16 := 64
  reconnect : ReconnectSettings := {}
deriving DecidableEq

/-- Concurrency limits by pool; zero means unlimited. -/
structure ConcurrencySettings where
  defaultLimit : UInt64 := defaultConcurrencyLimit
  limits : Keyed UInt64 := Keyed.empty

/-- The limit of a pool. -/
def ConcurrencySettings.limitFor (s : ConcurrencySettings) (pool : String) : UInt64 :=
  (s.limits.get? pool).getD s.defaultLimit

/-- A consumer declared in configuration. -/
structure ConsumerSettings where
  name : String := ""
  queue : String := ""
  exchange : Option String := none
  exchangeKind : String := "direct"
  routingKeys : List String := []
  pool : String := defaultPool
  prefetch : UInt16 := 1
  enable : Bool := true
  declare : Bool := true
  durable : Bool := true
  deadLetterExchange : Option String := none
  maxRedeliveries : UInt32 := 3
  retryDelayMs : Option UInt32 := none
  redeliveryHeader : Option String := none
  restartOnFailure : Bool := true
deriving DecidableEq

/-- All settings of a process. -/
structure Settings where
  appName : String := "amqp-consumer"
  brokers : Keyed BrokerSettings := Keyed.empty
  concurrency : ConcurrencySettings := {}
  consumers : List ConsumerSettings := []

instance : Inhabited Settings := ⟨{}⟩

/-- The connection settings of a pool. -/
def Settings.broker (s : Settings) (pool : String) : Except Failure BrokerSettings :=
  match s.brokers.get? pool with
  | some b => .ok b
  | none => .error (.configuration ("rabbitmq." ++ pool))

end AmqpDelivery
