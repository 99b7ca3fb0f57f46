import AmqpDelivery.Keyed

/-!
# JSON values

Numbers keep apart what is a natural number of 64 bits, a negative integer of 64 bits, and anything
else, which is held as the bits of a binary64 value. Members of an object stand in the order of
their keys; a repeated key keeps its last value.
-/

namespace AmqpDelivery

namespace Json

/-- A JSON number. -/
inductive Number where
  | natural (n : UInt64)
  | negative (n : Int64)
  | binary (bits : UInt64)
deriving DecidableEq

end Json

/-- A JSON value. -/
inductive Json where
  | null
  | bool (b : Bool)
  | number (n : Json.Number)
  | text (s : String)
  | array (items : List Json)
  | object (members : List (String × Json))

namespace Json

instance : Inhabited Json := ⟨.null⟩

/-- A natural number below `2 ^ 64` as a JSON number. -/
def ofNat (n : Nat) : Json := .number (.natural (UInt64.ofNat n))

/-- An integer that fits 64 bits, with or without sign, as a JSON number. -/
def ofInt (n : Int) : Json :=
  if n < 0 then .number (.negative (Int64.ofInt n)) else ofNat n.toNat

/-- An object with the given members. -/
def ofMembers (members : List (String × Json)) : Json :=
  .object (members.foldl (fun acc m => Entries.put m.1 m.2 acc) [])

/-- The value of a member, if this is an object that has it. -/
def member? (j : Json) (key : String) : Option Json :=
  match j with
  | .object members => Entries.find? key members
  | _ => none

end Json

end AmqpDelivery
