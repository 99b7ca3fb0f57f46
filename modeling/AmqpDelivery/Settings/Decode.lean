import AmqpDelivery.Settings.Source
import AmqpDelivery.Settings.Basic
import AmqpDelivery.Decimal.Layout
import AmqpDelivery.Text.Quoted

/-!
# Typed settings

Untyped settings are read into their types. Scalars convert where that is reasonable: text spells
numbers and truth values, numbers count as truth values, and numbers are printed where text is
asked for. A setting that does not fit is refused with its path and its source.
-/

namespace AmqpDelivery

/-- Why a setting could not be read. -/
inductive SettingFault where
  /-- A value of the wrong kind, at a path and from a source. -/
  | unfit (found expected : String) (path : Option String) (origin : Option String)
  /-- A whole table or array of the wrong kind. -/
  | misshapen (found expected : String)

namespace SettingFault

/-- The message of a fault. -/
def message : SettingFault → String
  | .unfit found expected path origin =>
      "invalid type: " ++ found ++ ", expected " ++ expected
        ++ (path.elim "" fun p => " for key `" ++ p ++ "`")
        ++ (origin.elim "" fun o => " in " ++ o)
  | .misshapen found expected => "invalid type: " ++ found ++ ", expected " ++ expected

/-- The path below a table entry: a dot goes between two names and not before an index. -/
def underKey (key : String) : SettingFault → SettingFault
  | .unfit found expected path origin =>
      let below := path.getD ""
      let dot := if below.isEmpty || below.startsWith "[" then "" else "."
      .unfit found expected (some (key ++ dot ++ below)) origin
  | f => f

/-- The path below an array item. -/
def underIndex (i : Nat) : SettingFault → SettingFault
  | .unfit found expected path origin =>
      .unfit found expected (some ("[" ++ Decimal.ofNat i ++ "]" ++ path.getD "")) origin
  | f => f

end SettingFault

namespace RawSetting

/-- The kind of a scalar that has no table, array or null in its place. -/
def found : RawSetting → String
  | .scalar _ .null => "unit value"
  | .scalar _ (.bool b) => "boolean `" ++ (if b then "true" else "false") ++ "`"
  | .scalar _ (.integer n) => "64-bit integer `" ++ Decimal.ofInt n.toInt ++ "`"
  | .scalar _ (.binary bits) => "floating point `" ++ Decimal.plain bits ++ "`"
  | .scalar _ (.text s) => "string " ++ Text.quoted s
  | .table _ _ => "map"
  | .array _ _ => "sequence"

/-- The kind of a value where a table or an array was expected. -/
def foundShape : RawSetting → String
  | .scalar _ (.integer n) => "integer `" ++ Decimal.ofInt n.toInt ++ "`"
  | .scalar _ (.binary bits) => "floating point `" ++ Decimal.plainWithPoint bits ++ "`"
  | s => s.found

/-- The source of a setting. -/
def origin : RawSetting → Option String
  | .scalar origin _ => origin
  | .table origin _ => origin
  | .array origin _ => origin

/-- Refuses a setting where a scalar was expected. -/
def unfit {α : Type} (s : RawSetting) (expected : String) : Except SettingFault α :=
  .error (.unfit s.found expected none s.origin)

/-- Refuses a setting where a table or an array was expected. -/
def misshapen {α : Type} (s : RawSetting) (expected : String) : Except SettingFault α :=
  .error (.misshapen s.foundShape expected)

/-- The truth value that a text spells, in any case. -/
def truth? (s : String) : Option Bool :=
  let s := Text.lowercase s
  if s = "true" ∨ s = "on" ∨ s = "yes" then some true
  else if s = "false" ∨ s = "off" ∨ s = "no" then some false
  else none

/-- Reads a truth value. -/
def toBool (s : RawSetting) : Except SettingFault Bool :=
  match s with
  | .scalar _ (.bool b) => .ok b
  | .scalar _ (.integer n) => .ok (n ≠ 0)
  | .scalar _ (.binary bits) => .ok (Float.ofBits bits != 0.0)
  | .scalar origin (.text t) =>
      match truth? t with
      | some b => .ok b
      | none =>
          if t = "1" then .ok true
          else if t = "0" then .ok false
          else (RawSetting.scalar origin (.text (Text.lowercase t))).unfit "a boolean"
  | s => s.unfit "a boolean"

/-- Reads a natural number of 64 bits. Numbers with a fraction are rounded, halves away from zero,
and cut off at the bounds. -/
def toUInt64 (s : RawSetting) : Except SettingFault UInt64 :=
  match s with
  | .scalar _ (.bool b) => .ok (if b then 1 else 0)
  | .scalar _ (.integer n) =>
      if 0 ≤ n.toInt then .ok (UInt64.ofNat n.toInt.toNat)
      else s.unfit "an unsigned 64 bit or less integer"
  | .scalar _ (.binary bits) => .ok (Float.ofBits bits).round.toUInt64
  | .scalar _ (.text t) =>
      match truth? t with
      | some b => .ok (if b then 1 else 0)
      | none =>
          match Decimal.readUInt64? t with
          | some n => .ok n
          | none => s.unfit "an integer"
  | s => s.unfit "an integer"

/-- Refuses a number beyond the width of its type. -/
def tooWide {α : Type} (n : UInt64) (width : Nat) : Except SettingFault α :=
  .error (.unfit ("64-bit unsigned integer `" ++ Decimal.ofNat n.toNat ++ "`")
    ("an unsigned " ++ Decimal.ofNat width ++ " bit integer") none none)

/-- Reads a natural number of 16 bits. -/
def toUInt16 (s : RawSetting) : Except SettingFault UInt16 := do
  let n ← s.toUInt64
  if n.toNat < UInt16.size then return UInt16.ofNat n.toNat else tooWide n 16

/-- Reads a natural number of 32 bits. -/
def toUInt32 (s : RawSetting) : Except SettingFault UInt32 := do
  let n ← s.toUInt64
  if n.toNat < UInt32.size then return UInt32.ofNat n.toNat else tooWide n 32

/-- Reads text; truth values and numbers are printed. -/
def toText (s : RawSetting) : Except SettingFault String :=
  match s with
  | .scalar _ (.text t) => .ok t
  | .scalar _ (.bool b) => .ok (if b then "true" else "false")
  | .scalar _ (.integer n) => .ok (Decimal.ofInt n.toInt)
  | .scalar _ (.binary bits) => .ok (Decimal.plain bits)
  | s => s.unfit "a string"

/-- Reads a setting that may be missing. -/
def toOption {α : Type} (read : RawSetting → Except SettingFault α) (s : RawSetting) :
    Except SettingFault (Option α) :=
  match s with
  | .scalar _ .null => .ok none
  | s => (read s).map some

/-- Reads the items of an array from position `i` on. -/
def toItems {α : Type} (read : RawSetting → Except SettingFault α) :
    Nat → List RawSetting → Except SettingFault (List α)
  | _, [] => .ok []
  | i, item :: rest => do
      let value ← (read item).mapError (SettingFault.underIndex i)
      return value :: (← toItems read (i + 1) rest)

/-- Reads an array. -/
def toList {α : Type} (read : RawSetting → Except SettingFault α) (s : RawSetting) :
    Except SettingFault (List α) :=
  match s with
  | .array _ items => toItems read 0 items
  | s => s.misshapen "a sequence"

/-- Reads the entries of a table into `acc`. -/
def toEntries {α : Type} (read : RawSetting → Except SettingFault α) :
    Keyed α → List (String × RawSetting) → Except SettingFault (Keyed α)
  | acc, [] => .ok acc
  | acc, (key, s) :: rest => do
      let value ← (read s).mapError (SettingFault.underKey key)
      toEntries read (acc.insert key value) rest

/-- Reads a table whose keys are free. -/
def toKeyed {α : Type} (read : RawSetting → Except SettingFault α) (s : RawSetting) :
    Except SettingFault (Keyed α) :=
  match s with
  | .table _ entries => toEntries read Keyed.empty entries
  | s => s.misshapen "a map"

/-- A field of a record: its key, and how its setting changes the record. -/
structure Field (σ : Type) where
  key : String
  read : RawSetting → σ → Except SettingFault σ

/-- A field with a reader for its value and an update of the record. -/
def Field.of {σ α : Type} (key : String) (read : RawSetting → Except SettingFault α)
    (update : σ → α → σ) : Field σ :=
  ⟨key, fun s r => (read s).map (update r)⟩

/-- Reads fields by their keys; unknown keys are passed over. -/
def toFields {σ : Type} (fields : List (Field σ)) :
    σ → List (String × RawSetting) → Except SettingFault σ
  | record, [] => .ok record
  | record, (key, s) :: rest => do
      match fields.find? (·.key = key) with
      | some field =>
          let record ← (field.read s record).mapError (SettingFault.underKey key)
          toFields fields record rest
      | none => toFields fields record rest

/-- Reads fields by their places; what is missing keeps its default. -/
def toFieldsInOrder {σ : Type} :
    List (Field σ) → Nat → σ → List RawSetting → Except SettingFault σ
  | field :: fields, i, record, s :: rest => do
      let record ← (field.read s record).mapError (SettingFault.underIndex i)
      toFieldsInOrder fields (i + 1) record rest
  | _, _, record, _ => .ok record

/-- Reads a record from a table or, field by field, from an array. -/
def toRecord {σ : Type} (name : String) (fields : List (Field σ)) (default : σ) (s : RawSetting) :
    Except SettingFault σ :=
  match s with
  | .table _ entries => toFields fields default entries
  | .array _ items => toFieldsInOrder fields 0 default items
  | s => s.misshapen ("struct " ++ name)

end RawSetting

open RawSetting

/-- Reads backoff settings. -/
def ReconnectSettings.ofRaw : RawSetting → Except SettingFault ReconnectSettings :=
  toRecord "ReconnectConfigs"
    [.of "initial_interval_ms" toUInt64 fun r n => { r with initialIntervalMs := n },
      .of "max_interval_ms" toUInt64 fun r n => { r with maxIntervalMs := n },
      .of "max_attempts" toUInt32 fun r n => { r with maxAttempts := n }] {}

/-- Reads the settings of a connection. -/
def BrokerSettings.ofRaw : RawSetting → Except SettingFault BrokerSettings :=
  toRecord "RabbitMQConfigs"
    [.of "host" toText fun r s => { r with host := s },
      .of "port" toUInt16 fun r n => { r with port := n },
      .of "vhost" toText fun r s => { r with vhost := s },
      .of "user" toText fun r s => { r with user := s },
      .of "password" toText fun r s => { r with password := s },
      .of "heartbeat" toUInt16 fun r n => { r with heartbeat := n },
      .of "max_channels" toUInt16 fun r n => { r with maxChannels := n },
      .of "reconnect" ReconnectSettings.ofRaw fun r s => { r with reconnect := s }] {}

/-- Reads concurrency limits. -/
def ConcurrencySettings.ofRaw : RawSetting → Except SettingFault ConcurrencySettings :=
  toRecord "ConcurrentConfigs"
    [.of "default_limit" toUInt64 fun r n => { r with defaultLimit := n },
      .of "limit" (toKeyed toUInt64) fun r t => { r with limits := t }] {}

/-- Reads a declared consumer. -/
def ConsumerSettings.ofRaw : RawSetting → Except SettingFault ConsumerSettings :=
  toRecord "ConsumerConfigs"
    [.of "name" toText fun r s => { r with name := s },
      .of "queue" toText fun r s => { r with queue := s },
      .of "exchange" (toOption toText) fun r s => { r with exchange := s },
      .of "exchange_kind" toText fun r s => { r with exchangeKind := s },
      .of "routing_keys" (toList toText) fun r l => { r with routingKeys := l },
      .of "pool" toText fun r s => { r with pool := s },
      .of "prefetch" toUInt16 fun r n => { r with prefetch := n },
      .of "enable" toBool fun r b => { r with enable := b },
      .of "declare" toBool fun r b => { r with declare := b },
      .of "durable" toBool fun r b => { r with durable := b },
      .of "dead_letter_exchange" (toOption toText) fun r s => { r with deadLetterExchange := s },
      .of "max_redeliveries" toUInt32 fun r n => { r with maxRedeliveries := n },
      .of "retry_delay_ms" (toOption toUInt32) fun r n => { r with retryDelayMs := n },
      .of "redelivery_header" (toOption toText) fun r s => { r with redeliveryHeader := s },
      .of "restart_on_failure" toBool fun r b => { r with restartOnFailure := b }] {}

/-- Reads all settings. -/
def Settings.ofRaw : RawSetting → Except SettingFault Settings :=
  toRecord "Configs"
    [.of "app" (toRecord "AppConfigs" [.of "name" toText fun _ s => s] "amqp-consumer")
        fun r s => { r with appName := s },
      .of "rabbitmq" (toKeyed BrokerSettings.ofRaw) fun r t => { r with brokers := t },
      .of "concurrent" ConcurrencySettings.ofRaw fun r s => { r with concurrency := s },
      .of "consumers" (toList ConsumerSettings.ofRaw) fun r l => { r with consumers := l }] {}

end AmqpDelivery
