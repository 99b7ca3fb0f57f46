import AmqpDelivery.Keyed

/-!
# Field values

The typed values that message headers and declaration arguments carry. Integers have the width of
their type, floating point numbers are kept as their bits, and tables nest.
-/

namespace AmqpDelivery

/-- A typed value of a field table. -/
inductive FieldValue where
  | boolean (b : Bool)
  | shortShortInt (n : Int8)
  | shortShortUInt (n : UInt8)
  | shortInt (n : Int16)
  | shortUInt (n : UInt16)
  | longInt (n : Int32)
  | longUInt (n : UInt32)
  | longLongInt (n : Int64)
  | float (bits : UInt32)
  | double (bits : UInt64)
  | decimal (scale : UInt8) (value : UInt32)
  | shortString (s : String)
  | longString (bytes : ByteArray)
  | array (items : List FieldValue)
  | timestamp (seconds : UInt64)
  | table (entries : List (String × FieldValue))
  | byteArray (bytes : ByteArray)
  | void

/-- Named values in the order of their names. -/
abbrev FieldTable := Keyed FieldValue

namespace FieldValue

/-- A long string that holds text. -/
def ofText (s : String) : FieldValue := .longString s.toUTF8

/-- The number held by a value of one of the integer types that are read as counters. -/
def integer? : FieldValue → Option Int
  | .shortShortInt n => some n.toInt
  | .shortShortUInt n => some n.toNat
  | .shortInt n => some n.toInt
  | .shortUInt n => some n.toNat
  | .longInt n => some n.toInt
  | .longUInt n => some n.toNat
  | .longLongInt n => some n.toInt
  | _ => none

/-- The text of a long string that holds valid UTF-8. -/
def text? : FieldValue → Option String
  | .longString bytes => String.fromUTF8? bytes
  | _ => none

/-- The items of an array. -/
def items? : FieldValue → Option (List FieldValue)
  | .array items => some items
  | _ => none

/-- The entries of a table. -/
def entries? : FieldValue → Option (List (String × FieldValue))
  | .table entries => some entries
  | _ => none

end FieldValue

end AmqpDelivery
