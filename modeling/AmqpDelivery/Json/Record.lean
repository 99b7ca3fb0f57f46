import AmqpDelivery.Json.Skip
import AmqpDelivery.Json.Writer
import AmqpDelivery.Text.Quoted

/-!
# Records with a numeric field

A record has one required field, a natural number of 32 bits. It is read from an object, whose other
members are skipped, or from a list of one number. A text of another shape is refused with the kind
of value found and the kind expected.
-/

namespace AmqpDelivery.Json

open Scan

/-- The name of a record and of its field. -/
structure RecordShape where
  name : String
  field : String

/-- The kind of a number, as a refusal words it. -/
def Number.kind : Number → String
  | .natural n => "integer `" ++ Decimal.ofNat n.toNat ++ "`"
  | .negative n => "integer `" ++ Decimal.ofInt n.toInt ++ "`"
  | .binary bits => "floating point `" ++ Decimal.json bits ++ "`"

/-- Refuses a value of the wrong kind. -/
def failKind {α : Type} (found expected : String) : Scan α :=
  fail (.unsuitable ("invalid type: " ++ found ++ ", expected " ++ expected))

/-- Refuses the value that comes next, having read as much of it as tells its kind. -/
def refuseNext {α : Type} (expected : String) : Scan α := do
  match ← peek with
  | some 110 => do skip; expectLetters nullLetters; failKind "null" expected
  | some 116 => do skip; expectLetters trueLetters; failKind "boolean `true`" expected
  | some 102 => do skip; expectLetters falseLetters; failKind "boolean `false`" expected
  | some 45 => do skip; failKind (← readNumber false).kind expected
  | some 34 => do skip; failKind ("string " ++ Text.quoted (← readText)) expected
  | some 91 => failKind "sequence" expected
  | some 123 => failKind "map" expected
  | some b =>
      if isDigit b then failKind (← readNumber true).kind expected else failAtNext .expectedValue
  | none => failAtNext .expectedValue

/-- Accepts a number that fits 32 bits without sign. -/
def acceptUInt32 (n : Number) : Scan UInt32 :=
  match n with
  | .natural n =>
      if n.toNat < UInt32.size then pure (UInt32.ofNat n.toNat)
      else fail (.unsuitable ("invalid value: " ++ (Number.natural n).kind ++ ", expected u32"))
  | .negative n =>
      fail (.unsuitable ("invalid value: " ++ (Number.negative n).kind ++ ", expected u32"))
  | .binary bits => failKind (Number.binary bits).kind "u32"

/-- Reads the value of the field. -/
def readUInt32 : Scan UInt32 := do
  skipBlanks
  match ← peek with
  | none => failAtNext .endInValue
  | some 45 => do skip; acceptUInt32 (← readNumber false)
  | some b => if isDigit b then acceptUInt32 (← readNumber true) else refuseNext "u32"

/-- The place that is reached when the end of a list is looked for. -/
def seekListEnd : Scan Unit := do
  skipBlanks
  match ← peek with
  | some 93 => skip
  | some 44 => do skip; skipBlanks
  | _ => pure ()

/-- The place that is reached when the end of an object is looked for. -/
def seekObjectEnd : Scan Unit := do
  skipBlanks
  match ← peek with
  | some 125 => skip
  | _ => pure ()

/-- Reads the closing bracket of a list. -/
def closeList : Scan Unit := do
  skipBlanks
  match ← peek with
  | some 93 => skip
  | some 44 => do
      skip
      skipBlanks
      match ← peek with
      | some 93 => failAtNext .trailingComma
      | _ => failAtNext .trailingCharacters
  | some _ => failAtNext .trailingCharacters
  | none => failAtNext .endInList

/-- Reads the members of an object up to its closing brace, `found` being the field's value so
far. -/
def readFields (shape : RecordShape) : Nat → Bool → Option UInt32 → Scan UInt32
  | 0, _, _ => fail .endInObject
  | fuel + 1, first, found => do
      if ← nextKey first then
        skip
        let key ← readText
        if key = shape.field then
          if found.isSome then
            seekObjectEnd
            fail (.unsuitable ("duplicate field `" ++ shape.field ++ "`"))
          readColon
          readFields shape fuel false (some (← readUInt32))
        else
          readColon
          skipOne
          readFields shape fuel false found
      else
        skip
        match found with
        | some n => return n
        | none => fail (.unsuitable ("missing field `" ++ shape.field ++ "`"))

/-- Reads a record. -/
def readRecord (shape : RecordShape) : Scan UInt32 := do
  skipBlanks
  match ← peek with
  | none => failAtNext .endInValue
  | some 91 =>
      skip
      if ← nextItem true then
        let n ← readUInt32
        closeList
        return n
      else
        seekListEnd
        fail (.unsuitable
          ("invalid length 0, expected struct " ++ shape.name ++ " with 1 element"))
  | some 123 =>
      skip
      readFields shape ((← read).size + 1) true none
  | some _ => refuseNext ("struct " ++ shape.name)

/-- The field of the record that a text holds, or the wording of its first fault. -/
def readRecordWhole (shape : RecordShape) (text : ByteArray) : Except String UInt32 :=
  (do let n ← readRecord shape; expectEnd; return n : Scan UInt32).onText text

end AmqpDelivery.Json
