import AmqpDelivery.Document.Read
import AmqpDelivery.Field.Properties
import AmqpDelivery.Json.Reader
import AmqpDelivery.Json.Writer

/-!
# Field values as documents

A field value is an object with its type under `t` and its content under `v`. Bytes are text where
they are valid UTF-8 and otherwise an object with hexadecimal digits; floating point numbers are
given by their bits. Of the properties of a message only those that are set are members.
-/

namespace AmqpDelivery.Document

/-- The byte with the given hexadecimal digits. -/
def hexByte? (high low : Char) : Option UInt8 := do
  let high ← Json.hexValue? (UInt8.ofNat high.toNat)
  let low ← Json.hexValue? (UInt8.ofNat low.toNat)
  return UInt8.ofNat (high * 16 + low)

/-- The bytes with the given pairs of hexadecimal digits. -/
def hexBytes : List Char → Read (List UInt8)
  | [] => .ok []
  | high :: low :: rest =>
      match hexByte? high low with
      | some b => (hexBytes rest).map (b :: ·)
      | none => bad "expected hexadecimal digits"
  | _ => bad "expected pairs of hexadecimal digits"

/-- Reads bytes in hexadecimal digits. -/
def ofHex (s : String) : Read ByteArray := return ⟨(← hexBytes s.toList).toArray⟩

/-- Reads a number in hexadecimal digits. -/
def hexNat (s : String) : Read Nat :=
  return (← ofHex s).data.foldl (fun acc b => acc * 256 + b.toNat) 0

/-- Writes bytes in hexadecimal digits. -/
def toHex (bytes : ByteArray) : String :=
  String.ofList (bytes.data.toList.flatMap fun b =>
    [Json.hexChar (b.toNat / 16), Json.hexChar (b.toNat % 16)])

/-- Writes a number in at least `digits` hexadecimal digits. -/
def hexWide (digits n : Nat) : String :=
  let written := Nat.toDigits 16 n
  String.ofList (List.replicate (digits - written.length) '0' ++ written)

/-- A text, `n` times over. -/
def repeated (s : String) (n : Nat) : String := String.join (List.replicate n s)

/-- Reads bytes: text, hexadecimal digits, or a text that is repeated. -/
def asBytes : Json → Read ByteArray
  | .null => .ok ByteArray.empty
  | .text s => .ok s.toUTF8
  | j =>
      match j.member? "hex" with
      | some digits => do ofHex (← asText digits)
      | none => return (repeated (← textOr "" j "repeat") (← natOr 0 j "times")).toUTF8

/-- Writes bytes. -/
def ofBytes (bytes : ByteArray) : Json :=
  match String.fromUTF8? bytes with
  | some s => .text s
  | none => Json.ofMembers [("hex", .text (toHex bytes))]

theorem sizeOf_lt_of_find? {key : String} {members : List (String × Json)} {j : Json}
    (h : Entries.find? key members = some j) : sizeOf j < sizeOf members := by
  induction members with
  | nil => simp [Entries.find?] at h
  | cons head rest ih =>
      obtain ⟨k, v⟩ := head
      unfold Entries.find? at h
      split at h
      · cases h
        simp only [List.cons.sizeOf_spec, Prod.mk.sizeOf_spec]
        omega
      · have := ih h
        simp only [List.cons.sizeOf_spec]
        omega

/-- Reads a value of one of the types without parts. -/
def asScalar (kind : String) (v : Json) : Read FieldValue := do
  match kind with
  | "Boolean" => return .boolean (← asBool v)
  | "ShortShortInt" => return .shortShortInt (Int8.ofInt (← asInt v))
  | "ShortShortUInt" => return .shortShortUInt (UInt8.ofNat (← asNat v))
  | "ShortInt" => return .shortInt (Int16.ofInt (← asInt v))
  | "ShortUInt" => return .shortUInt (UInt16.ofNat (← asNat v))
  | "LongInt" => return .longInt (Int32.ofInt (← asInt v))
  | "LongUInt" => return .longUInt (UInt32.ofNat (← asNat v))
  | "LongLongInt" => return .longLongInt (Int64.ofInt (← asInt v))
  | "Timestamp" => return .timestamp (← asUInt64 v)
  | "Float" => return .float (UInt32.ofNat (← hexNat (← asText v)))
  | "Double" => return .double (UInt64.ofNat (← hexNat (← asText v)))
  | "DecimalValue" =>
      return .decimal (UInt8.ofNat (← asNat (field v "scale")))
        (UInt32.ofNat (← asNat (field v "value")))
  | "ShortString" => return .shortString (← asText v)
  | "LongString" => return .longString (← asBytes v)
  | "ByteArray" => return .byteArray (← ofHex (← asText v))
  | "Void" => return .void
  | kind => bad ("unknown type " ++ kind)

mutual

/-- Reads a field value. -/
def asValue : Json → Read FieldValue
  | .object members => do
      match ← asText ((Entries.find? "t" members).getD .null) with
      | "FieldArray" =>
          match _h : Entries.find? "v" members with
          | some (.array items) => return .array (← asItems items)
          | _ => bad "expected a list"
      | "FieldTable" =>
          match _h : Entries.find? "v" members with
          | some (.object entries) =>
              return .table (Keyed.ofList (← asEntries entries)).entries
          | _ => bad "expected an object"
      | kind => asScalar kind ((Entries.find? "v" members).getD .null)
  | _ => bad "expected a field value"
termination_by j => sizeOf j
decreasing_by
  all_goals
    have := sizeOf_lt_of_find? _h
    simp only [Json.object.sizeOf_spec, Json.array.sizeOf_spec] at *
    omega

/-- Reads the items of an array. -/
def asItems : List Json → Read (List FieldValue)
  | [] => .ok []
  | j :: rest => return (← asValue j) :: (← asItems rest)
termination_by items => sizeOf items

/-- Reads the entries of a table. -/
def asEntries : List (String × Json) → Read (List (String × FieldValue))
  | [] => .ok []
  | (key, j) :: rest => return (key, ← asValue j) :: (← asEntries rest)
termination_by entries => sizeOf entries

end

/-- Reads a table. -/
def asTable (j : Json) : Read FieldTable := return Keyed.ofList (← asEntries (← asMembers j))

/-- A value with its type. -/
def typed (kind : String) (v : Json) : Json := Json.ofMembers [("t", .text kind), ("v", v)]

mutual

/-- Writes a field value. -/
def ofValue : FieldValue → Json
  | .boolean b => typed "Boolean" (.bool b)
  | .shortShortInt n => typed "ShortShortInt" (Json.ofInt n.toInt)
  | .shortShortUInt n => typed "ShortShortUInt" (Json.ofNat n.toNat)
  | .shortInt n => typed "ShortInt" (Json.ofInt n.toInt)
  | .shortUInt n => typed "ShortUInt" (Json.ofNat n.toNat)
  | .longInt n => typed "LongInt" (Json.ofInt n.toInt)
  | .longUInt n => typed "LongUInt" (Json.ofNat n.toNat)
  | .longLongInt n => typed "LongLongInt" (Json.ofInt n.toInt)
  | .timestamp n => typed "Timestamp" (Json.ofNat n.toNat)
  | .float bits => typed "Float" (.text (hexWide 8 bits.toNat))
  | .double bits => typed "Double" (.text (hexWide 16 bits.toNat))
  | .decimal scale value =>
      typed "DecimalValue"
        (Json.ofMembers [("scale", Json.ofNat scale.toNat), ("value", Json.ofNat value.toNat)])
  | .shortString s => typed "ShortString" (.text s)
  | .longString bytes => typed "LongString" (ofBytes bytes)
  | .byteArray bytes => typed "ByteArray" (.text (toHex bytes))
  | .array items => typed "FieldArray" (.array (ofItems items))
  | .table entries => typed "FieldTable" (.object (ofEntries entries))
  | .void => Json.ofMembers [("t", .text "Void")]

/-- Writes the items of an array. -/
def ofItems : List FieldValue → List Json
  | [] => []
  | v :: rest => ofValue v :: ofItems rest

/-- Writes the entries of a table. -/
def ofEntries : List (String × FieldValue) → List (String × Json)
  | [] => []
  | (key, v) :: rest => (key, ofValue v) :: ofEntries rest

end

/-- Writes a table. -/
def ofTable (t : FieldTable) : Json := .object (ofEntries t.entries)

/-- Reads properties. -/
def asProperties (j : Json) : Read Properties := do
  let text (key : String) : Read (Option String) := asOption asText (field j key)
  return {
    contentType := ← text "content_type"
    contentEncoding := ← text "content_encoding"
    headers := ← asOption asTable (field j "headers")
    deliveryMode := (← asOption asNat (field j "delivery_mode")).map UInt8.ofNat
    priority := (← asOption asNat (field j "priority")).map UInt8.ofNat
    correlationId := ← text "correlation_id"
    replyTo := ← text "reply_to"
    expiration := ← text "expiration"
    messageId := ← text "message_id"
    timestamp := ← asOption asUInt64 (field j "timestamp")
    kind := ← text "type"
    userId := ← text "user_id"
    appId := ← text "app_id"
    clusterId := ← text "cluster_id" }

/-- Writes properties. -/
def ofProperties (p : Properties) : Json :=
  Json.ofMembers (present "content_type" (p.contentType.map .text)
    ++ present "content_encoding" (p.contentEncoding.map .text)
    ++ present "headers" (p.headers.map ofTable)
    ++ present "delivery_mode" (p.deliveryMode.map fun n => Json.ofNat n.toNat)
    ++ present "priority" (p.priority.map fun n => Json.ofNat n.toNat)
    ++ present "correlation_id" (p.correlationId.map .text)
    ++ present "reply_to" (p.replyTo.map .text)
    ++ present "expiration" (p.expiration.map .text)
    ++ present "message_id" (p.messageId.map .text)
    ++ present "timestamp" (p.timestamp.map ofUInt64)
    ++ present "type" (p.kind.map .text)
    ++ present "user_id" (p.userId.map .text)
    ++ present "app_id" (p.appId.map .text)
    ++ present "cluster_id" (p.clusterId.map .text))

end AmqpDelivery.Document
