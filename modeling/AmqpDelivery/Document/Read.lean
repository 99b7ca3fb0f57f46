import AmqpDelivery.Json.Basic

/-!
# Reading documents

The values of this library have a JSON form, in which tools hand them over. This module holds what
the readers of that form share. A reader either succeeds or names what it did not understand.
-/

namespace AmqpDelivery.Document

/-- The result of a reader, or what it did not understand. -/
abbrev Read := Except String

/-- A member of an object; what is missing counts as null. -/
def field (j : Json) (key : String) : Json := (j.member? key).getD .null

/-- Gives up. -/
def bad {α : Type} (what : String) : Read α := .error what

/-- Reads text. -/
def asText : Json → Read String
  | .text s => .ok s
  | _ => bad "expected text"

/-- Reads a truth value. -/
def asBool : Json → Read Bool
  | .bool b => .ok b
  | _ => bad "expected a truth value"

/-- Reads an integer. -/
def asInt : Json → Read Int
  | .number (.natural n) => .ok n.toNat
  | .number (.negative n) => .ok n.toInt
  | _ => bad "expected an integer"

/-- Reads a natural number. -/
def asNat (j : Json) : Read Nat := do
  let n ← asInt j
  if n < 0 then bad "expected a natural number" else return n.toNat

/-- Reads a natural number of 64 bits. -/
def asUInt64 (j : Json) : Read UInt64 := return UInt64.ofNat (← asNat j)

/-- Reads a list. -/
def asList : Json → Read (List Json)
  | .array items => .ok items
  | _ => bad "expected a list"

/-- Reads the members of an object. -/
def asMembers : Json → Read (List (String × Json))
  | .object members => .ok members
  | _ => bad "expected an object"

/-- Reads what may be null. -/
def asOption {α : Type} (read : Json → Read α) : Json → Read (Option α)
  | .null => .ok none
  | j => (read j).map some

/-- Reads what has a default. -/
def orElse {α : Type} (default : α) (read : Json → Read α) (j : Json) : Read α :=
  return (← asOption read j).getD default

/-- Reads a member that is text. -/
def textOr (default : String) (j : Json) (key : String) : Read String :=
  orElse default asText (field j key)

/-- Reads a member that is a truth value. -/
def boolOr (default : Bool) (j : Json) (key : String) : Read Bool :=
  orElse default asBool (field j key)

/-- Reads a member that is a natural number. -/
def natOr (default : Nat) (j : Json) (key : String) : Read Nat :=
  orElse default asNat (field j key)

/-- Reads a member that is a list. -/
def listOr (j : Json) (key : String) : Read (List Json) := orElse [] asList (field j key)

/-- An instruction: its name and its arguments. -/
structure Op where
  name : String
  args : List Json

namespace Op

/-- An argument; what is missing counts as null. -/
def arg (o : Op) (i : Nat) : Json := (o.args[i]?).getD .null

/-- An argument that is text. -/
def text (o : Op) (i : Nat) : Read String := asText (o.arg i)

/-- An argument that is a natural number. -/
def nat (o : Op) (i : Nat) : Read Nat := asNat (o.arg i)

/-- An argument that is a natural number of 64 bits. -/
def uint64 (o : Op) (i : Nat) : Read UInt64 := asUInt64 (o.arg i)

/-- An argument that is a truth value. -/
def bool (o : Op) (i : Nat) : Read Bool := asBool (o.arg i)

/-- Nobody knows the instruction. -/
def unknown {α : Type} (o : Op) : Read α := bad ("unknown op " ++ o.name)

end Op

/-- Reads an instruction: a list that begins with the name. -/
def asOp (j : Json) : Read Op := do
  match ← asList j with
  | .text name :: args => return ⟨name, args⟩
  | _ => bad "expected an instruction"

/-- Reads the instructions of an object. -/
def asOps (j : Json) : Read (List Op) := do (← listOr j "ops").mapM asOp

/-- The members that are there. -/
def present (key : String) : Option Json → List (String × Json)
  | some j => [(key, j)]
  | none => []

/-- Writes what may be missing. -/
def optional {α : Type} (write : α → Json) : Option α → Json
  | some a => write a
  | none => .null

/-- Writes a natural number of 64 bits. -/
def ofUInt64 (n : UInt64) : Json := Json.ofNat n.toNat

end AmqpDelivery.Document
