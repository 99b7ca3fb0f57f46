import AmqpDelivery.Settings.Path
import AmqpDelivery.Settings.Decode
import AmqpDelivery.Json.Reader

/-!
# Loading settings

Settings come from an optional JSON file and then from the environment, whose variables override
the file. A variable counts if its name starts with `AMQP__` in any case; the rest of the name, with
every double underscore read as a dot, is the path of the setting.
-/

namespace AmqpDelivery

/-- Where a source file is looked for: its name and its text. -/
abbrev Directory := Keyed String

/-- The source that settings from the environment name. -/
def environmentOrigin : String := "the environment"

/-- Start of the names of variables that are read, in lowercase. -/
def environmentStart : List Char := "amqp__".toList

/-- The names between slashes, without empty ones and those that mean the same place. -/
def pathParts (path : String) : List String :=
  (path.splitOn "/").filter fun part => part ≠ "" ∧ part ≠ "."

/-- The file that a path names: the one of exactly that name, or of that name with `.json` behind
it. Nothing is found below another directory. -/
def Directory.locate (d : Directory) (path : String) : Option (String × String) :=
  if path.startsWith "/" then none
  else
    match pathParts path with
    | [name] =>
        let exact := if path.endsWith "/" || path.endsWith "/." then none else d.get? name
        match exact with
        | some text => some (name, text)
        | none => (d.get? (name ++ ".json")).map fun text => (name ++ ".json", text)
    | _ => none

/-- Drops a byte order mark. -/
def dropMark (s : String) : String :=
  match s.toList with
  | c :: rest => if c.toNat = 0xFEFF then String.ofList rest else s
  | [] => s

/-- The settings that a file holds. -/
def fileSource (name text : String) : Except Failure (List (String × RawSetting)) :=
  match Json.ofBytes (dropMark text).toUTF8 with
  | .error message => .error (.configuration (message ++ " in " ++ name))
  | .ok value =>
      match RawSetting.ofJson (some name) value with
      | .table _ entries => .ok entries
      | other =>
          .error (.configuration
            ((SettingFault.unfit other.found "a map" none (some name)).message ++ " in " ++ name))

/-- Every double underscore read as a dot, from the left. -/
def dotted : List Char → List Char
  | '_' :: '_' :: rest => '.' :: dotted rest
  | c :: rest => c :: dotted rest
  | [] => []

/-- The path that a variable's name spells, if the variable counts. -/
def variablePath? (name : String) : Option String :=
  let lower := (Text.lowercase name).toList
  if environmentStart.isPrefixOf lower then
    some (String.ofList (dotted (lower.drop environmentStart.length)))
  else none

/-- The settings that the environment holds. -/
def environmentSource (env : List (String × String)) : List (String × RawSetting) :=
  (Keyed.ofList (env.filterMap fun v =>
    (variablePath? v.1).map fun path =>
      (path, RawSetting.scalar (some environmentOrigin) (.text v.2)))).entries

/-- Types the settings, or words the first fault. -/
def Settings.ofMerged (s : RawSetting) : Except Failure Settings :=
  (Settings.ofRaw s).mapError fun fault => .configuration fault.message

/-- The settings of the sources, later ones over earlier ones. -/
def Settings.ofSources (sources : List (List (String × RawSetting))) : Except Failure Settings :=
  let merged := sources.foldl RawSetting.collect RawSetting.emptyTable
  Settings.ofMerged (RawSetting.emptyTable.collect merged.entries)

/-- Loads the settings from the file that `path` names, if there is one, and from the variables. -/
def Settings.load (d : Directory) (path : Option String) (env : List (String × String)) :
    Except Failure Settings := do
  let file ←
    match path.bind d.locate with
    | some (name, text) => fileSource name text
    | none => pure []
  Settings.ofSources [file, environmentSource env]

/-- Settings put together by the program itself, under paths and without a source. -/
def Settings.ofOverrides (overrides : List (SettingPath × Scalar)) : Except Failure Settings :=
  Settings.ofMerged (overrides.foldl
    (fun acc o => acc.putPath o.1 (.scalar none o.2)) RawSetting.emptyTable)

end AmqpDelivery
