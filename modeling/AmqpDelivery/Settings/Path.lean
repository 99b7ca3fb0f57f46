import AmqpDelivery.Settings.Source
import AmqpDelivery.Decimal.Natural

/-!
# Paths of settings

A path such as `consumers[1].queue` names a place in nested tables and arrays. Filing a setting at a
path makes whatever is on the way into a table or an array of sufficient length.
-/

namespace AmqpDelivery

/-- One step below the first name of a path. -/
inductive PathStep where
  | name (key : String)
  | index (n : Int)
deriving DecidableEq

/-- A name and the steps below it. -/
structure SettingPath where
  head : String
  steps : List PathStep
deriving DecidableEq

namespace SettingPath

/-- Characters of names: ASCII letters and digits, space, underscore and hyphen. -/
def isNameChar (c : Char) : Bool :=
  c.isAlphanum || c == ' ' || c == '_' || c == '-'

/-- A non-empty name at the start of the characters, and what follows it. -/
def takeName (cs : List Char) : Option (String × List Char) :=
  match cs.span isNameChar with
  | ([], _) => none
  | (name, rest) => some (String.ofList name, rest)

/-- A blank inside brackets. -/
def isIndexBlank (c : Char) : Bool := c == ' ' || c == '\t'

/-- The number of indices from zero on, and of those below zero. -/
def indexBound : Nat := 0x8000000000000000

/-- The number between brackets, behind the opening one, and what follows the closing one. -/
def takeIndex (cs : List Char) : Option (Int × List Char) :=
  let cs := cs.dropWhile isIndexBlank
  let (negative, cs) :=
    match cs with
    | '-' :: rest => (true, rest)
    | _ => (false, cs)
  let (number, rest) := cs.span fun c => (Decimal.digit? c).isSome
  match Decimal.value? number, rest.dropWhile isIndexBlank with
  | some n, ']' :: rest =>
      if negative then
        if n ≤ indexBound then some (-(n : Int), rest) else none
      else if n < indexBound then some ((n : Int), rest) else none
  | _, _ => none

/-- The steps that the characters spell; `fuel` bounds their number. -/
def takeSteps : Nat → List Char → Option (List PathStep)
  | _, [] => some []
  | 0, _ => none
  | fuel + 1, '.' :: rest => do
      let (name, rest) ← takeName rest
      return .name name :: (← takeSteps fuel rest)
  | fuel + 1, '[' :: rest => do
      let (n, rest) ← takeIndex rest
      return .index n :: (← takeSteps fuel rest)
  | _, _ => none

/-- The path that a text spells, if it spells one. -/
def ofText? (s : String) : Option SettingPath := do
  let (head, rest) ← takeName s.toList
  return ⟨head, ← takeSteps rest.length rest⟩

end SettingPath

namespace RawSetting

/-- The position that an index means in a list of `length` items; negative ones count from the end
and stop at the start. -/
def position (length : Nat) (n : Int) : Nat :=
  if 0 ≤ n then n.toNat else length - n.natAbs

/-- Changes the item at a position, filling a short list with empty settings. -/
def modifyAt (change : RawSetting → RawSetting) (s : RawSetting) (n : Int) : RawSetting :=
  let items := s.items
  let i := position items.length n
  let filled := items ++ List.replicate (i + 1 - items.length) null
  let origin :=
    match s with
    | .array origin _ => origin
    | _ => none
  .array origin (filled.modify i change)

/-- Files a setting below `s`. -/
def putSteps (value : RawSetting) : List PathStep → RawSetting → RawSetting
  | [], _ => value
  | [.name key], s => s.putKey key value
  | [.index n], s => s.modifyAt (fun _ => value) n
  | .name key :: rest, s => s.withEntry key (putSteps value rest ((s.entry? key).getD null))
  | .index n :: rest, s => s.modifyAt (putSteps value rest) n

/-- Files a setting at a path. -/
def putPath (s : RawSetting) (path : SettingPath) (value : RawSetting) : RawSetting :=
  match path.steps with
  | [] => s.putKey path.head value
  | steps => s.withEntry path.head (putSteps value steps ((s.entry? path.head).getD null))

/-- Files a setting under a key that may spell a path. -/
def putSpelled (s : RawSetting) (key : String) (value : RawSetting) : RawSetting :=
  match SettingPath.ofText? key with
  | some path => s.putPath path value
  | none => s.putKey key value

/-- Files all settings of a source. -/
def collect (s : RawSetting) (source : List (String × RawSetting)) : RawSetting :=
  source.foldl (fun acc e => acc.putSpelled e.1 e.2) s

end RawSetting

end AmqpDelivery
