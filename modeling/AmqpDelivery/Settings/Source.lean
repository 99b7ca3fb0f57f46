import AmqpDelivery.Json.Basic
import AmqpDelivery.Text.Lowercase

/-!
# Untyped settings

Settings before they get their types: scalars, tables and arrays that remember the source they were
read from. Keys of tables are filed in lowercase (`RawSetting.putKey`); the tables inside an array
stay as they were written. Filing a table under a key merges it into what is there, anything else
replaces it.
-/

namespace AmqpDelivery

/-- A setting without parts. -/
inductive Scalar where
  | null
  | bool (b : Bool)
  | integer (n : Int64)
  | binary (bits : UInt64)
  | text (s : String)
deriving DecidableEq

/-- A setting with the source it came from; a table made by merging has none. -/
inductive RawSetting where
  | scalar (origin : Option String) (value : Scalar)
  | table (origin : Option String) (entries : List (String × RawSetting))
  | array (origin : Option String) (items : List RawSetting)

namespace RawSetting

/-- A setting that nobody gave. -/
def null : RawSetting := .scalar none .null

/-- A table without entries and source. -/
def emptyTable : RawSetting := .table none []

instance : Inhabited RawSetting := ⟨null⟩

/-- A number read from a file: an integer if it fits 64 bits with sign. -/
def ofNumber : Json.Number → Scalar
  | .natural n =>
      if n.toNat < 0x8000000000000000 then .integer (Int64.ofNat n.toNat)
      else .binary n.toFloat.toBits
  | .negative n => .integer n
  | .binary bits => .binary bits

mutual

/-- A JSON value as a setting of the given source. -/
def ofJson (origin : Option String) : Json → RawSetting
  | .null => .scalar origin .null
  | .bool b => .scalar origin (.bool b)
  | .number n => .scalar origin (ofNumber n)
  | .text s => .scalar origin (.text s)
  | .array items => .array origin (ofItems origin items)
  | .object members => .table origin (ofMembers origin members)

/-- The items of an array. -/
def ofItems (origin : Option String) : List Json → List RawSetting
  | [] => []
  | item :: rest => ofJson origin item :: ofItems origin rest

/-- The members of an object. -/
def ofMembers (origin : Option String) : List (String × Json) → List (String × RawSetting)
  | [] => []
  | (key, value) :: rest => (key, ofJson origin value) :: ofMembers origin rest

end

/-- The entries of a table; what is no table counts as an empty one. -/
def entries : RawSetting → List (String × RawSetting)
  | .table _ entries => entries
  | _ => []

/-- The items of an array; what is no array counts as an empty one. -/
def items : RawSetting → List RawSetting
  | .array _ items => items
  | _ => []

/-- The entry under a key, which is looked up in lowercase. -/
def entry? (s : RawSetting) (key : String) : Option RawSetting :=
  Entries.find? (Text.lowercase key) s.entries

/-- Replaces the entry under a key; what is no table becomes one. -/
def withEntry (s : RawSetting) (key : String) (value : RawSetting) : RawSetting :=
  match s with
  | .table origin entries => .table origin (Entries.put (Text.lowercase key) value entries)
  | _ => .table none [(Text.lowercase key, value)]

mutual

/-- Files a setting under a key. -/
def putKey (s : RawSetting) (key : String) : RawSetting → RawSetting
  | .table _ incoming => s.withEntry key (putAll ((s.entry? key).getD emptyTable) incoming)
  | .scalar origin value => s.withEntry key (.scalar origin value)
  | .array origin items => s.withEntry key (.array origin items)

/-- Files entries one after the other. -/
def putAll (s : RawSetting) : List (String × RawSetting) → RawSetting
  | [] => s
  | (key, value) :: rest => putAll (putKey s key value) rest

end

end RawSetting

end AmqpDelivery
