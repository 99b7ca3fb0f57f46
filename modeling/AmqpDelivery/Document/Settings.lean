import AmqpDelivery.Document.Read
import AmqpDelivery.Settings.Decode

/-!
# Settings as documents

Settings are read from and written to JSON objects with one member per setting. Members that are
missing take their defaults.
-/

namespace AmqpDelivery.Document

/-- Reads a document as settings are read from a file. -/
def asSetting {α : Type} (read : RawSetting → Except SettingFault α) (default : α) :
    Json → Read α
  | .null => .ok default
  | j => (read (RawSetting.ofJson none j)).mapError SettingFault.message

/-- Reads backoff settings, whose intervals may use all 64 bits. -/
def asReconnect (j : Json) : Read ReconnectSettings := do
  let d : ReconnectSettings := {}
  return {
    initialIntervalMs := ← orElse d.initialIntervalMs asUInt64 (field j "initial_interval_ms")
    maxIntervalMs := ← orElse d.maxIntervalMs asUInt64 (field j "max_interval_ms")
    maxAttempts := UInt32.ofNat (← natOr d.maxAttempts.toNat j "max_attempts") }

/-- Reads the settings of a connection. -/
def asBroker (j : Json) : Read BrokerSettings := do
  let b ← asSetting BrokerSettings.ofRaw {} j
  return { b with reconnect := ← asReconnect (field j "reconnect") }

/-- Reads concurrency limits, which may use all 64 bits. -/
def asConcurrency (j : Json) : Read ConcurrencySettings := do
  let limits ← (← orElse [] asMembers (field j "limit")).mapM fun m => do
    return (m.1, ← asUInt64 m.2)
  return {
    defaultLimit := ← orElse defaultConcurrencyLimit asUInt64 (field j "default_limit")
    limits := Keyed.ofList limits }

/-- Reads a declared consumer. -/
def asConsumerSettings : Json → Read ConsumerSettings := asSetting ConsumerSettings.ofRaw {}

/-- Reads all settings of a process. -/
def asSettings (j : Json) : Read Settings := do
  let d : Settings := {}
  let brokers ← (← orElse [] asMembers (field j "rabbitmq")).mapM fun m => do
    return (m.1, ← asBroker m.2)
  return {
    appName := ← textOr d.appName (field j "app") "name"
    brokers := Keyed.ofList brokers
    concurrency := ← asConcurrency (field j "concurrent")
    consumers := ← (← listOr j "consumers").mapM asConsumerSettings }

/-- Writes the settings of a connection, with its URI. -/
def ofBroker (b : BrokerSettings) (uri : String) : Json :=
  Json.ofMembers [("host", .text b.host), ("port", Json.ofNat b.port.toNat),
    ("vhost", .text b.vhost), ("user", .text b.user), ("password", .text b.password),
    ("heartbeat", Json.ofNat b.heartbeat.toNat), ("max_channels", Json.ofNat b.maxChannels.toNat),
    ("reconnect", Json.ofMembers [
      ("initial_interval_ms", ofUInt64 b.reconnect.initialIntervalMs),
      ("max_interval_ms", ofUInt64 b.reconnect.maxIntervalMs),
      ("max_attempts", Json.ofNat b.reconnect.maxAttempts.toNat)]),
    ("uri", .text uri)]

/-- Writes a declared consumer and the definition that it leads to. -/
def ofConsumerSettings (s : ConsumerSettings) (definition : Json) : Json :=
  Json.ofMembers [("name", .text s.name), ("queue", .text s.queue),
    ("exchange", optional .text s.exchange), ("exchange_kind", .text s.exchangeKind),
    ("routing_keys", .array (s.routingKeys.map .text)), ("pool", .text s.pool),
    ("prefetch", Json.ofNat s.prefetch.toNat), ("enable", .bool s.enable),
    ("declare", .bool s.declare), ("durable", .bool s.durable),
    ("dead_letter_exchange", optional .text s.deadLetterExchange),
    ("max_redeliveries", Json.ofNat s.maxRedeliveries.toNat),
    ("retry_delay_ms", optional (fun n => Json.ofNat n.toNat) s.retryDelayMs),
    ("redelivery_header", optional .text s.redeliveryHeader),
    ("restart_on_failure", .bool s.restartOnFailure), ("definition", definition)]

end AmqpDelivery.Document
