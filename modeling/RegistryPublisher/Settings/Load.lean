import RegistryPublisher.Settings
import RegistryPublisher.Settings.Variables
import RegistryPublisher.Toml.Document
import RegistryPublisher.World.EnvFile

/-!
# Loading settings

Later layers are put over earlier ones: what is built in, the user's file, the project's file, the environment.

- `Settings.layers` is the merged value of all layers, `Settings.ofValue` takes the settings out of it;
- `Settings.load` does both, `Settings.loadWithEnvFile` after setting variables from a file.
-/

namespace RegistryPublisher.Settings

/-- Why settings cannot be loaded. -/
inductive LoadFailure where
  /-- A file is there and cannot be read. -/
  | unreadable (path : String) (e : FileError)
  /-- A file is no TOML document. -/
  | malformed (path : String)
  /-- A value has the wrong type. -/
  | wrongType (found : String) (wanted : String) (key : List String)
  deriving DecidableEq, Repr

namespace LoadFailure

/-- The failure in words. -/
def message : LoadFailure → String := fun _ => "configuration error"

/-- What the failure comes from. -/
def reason : LoadFailure → String
  | unreadable path e => e.message ++ " in " ++ path
  | malformed path => "malformed TOML in " ++ path
  | wrongType found wanted key =>
    "invalid type: found " ++ found ++ ", expected " ++ wanted ++ " at " ++ ".".intercalate key

end LoadFailure

/-! ## Layers -/

/-- The lowest layer. -/
def builtIn : Value := .table [
  ("auth", .table [("token", .string ""), ("token_file", .string "")]),
  ("registry", .table [("url", .string "")])]

/-- The directory of the user's files: `XDG_CONFIG_HOME` when it is an absolute path, or else one in the home directory,
if there is one. -/
def configHome? (w : World) : Option String :=
  (w.environment.get? "XDG_CONFIG_HOME").filter Path.isAbsolute <|> w.home?.map (Path.join · ".config")

/-- The user's file, if there is a directory for it. -/
def userFile? (w : World) : Option String :=
  (configHome? w).map fun d => Path.join (Path.join d "mcp-publisher") "config.toml"

/-- The project's file. -/
def projectFile : String := ".mcp-publisher.toml"

/-- Where a file is read from, if at all. When a relative path leads to something that is no file, the file is looked
for in the directories above. -/
def locate (w : World) (path : String) : Option String :=
  if w.hasPath path then
    if Path.isAbsolute path then (if w.hasFile path then some path else none) else w.find? path
  else none

/-- Puts the layer of a file over a value. -/
def addFile (w : World) (path : String) (v : Value) : Except LoadFailure Value :=
  match locate w path with
  | none => .ok v
  | some found =>
    match w.read found with
    | .error e => .error (.unreadable found e)
    | .ok content =>
      match Toml.decode? content with
      | some layer => .ok (v.merge layer)
      | none => .error (.malformed found)

/-- Puts the layer of the user's file over a value. -/
def addUserFile (w : World) (v : Value) : Except LoadFailure Value :=
  match userFile? w with
  | none => .ok v
  | some path => addFile w path v

/-- The merged layers. -/
def layers (w : World) : Except LoadFailure Value := do
  let v ← addUserFile w builtIn
  let v ← addFile w projectFile v
  return v.merge (Variables.layer w.environment)

/-! ## Taking settings out -/

/-- A text. -/
def text (key : List String) : Value → Except LoadFailure String
  | .string s => .ok s
  | v => .error (.wrongType v.describe "a string" key)

/-- The texts of a section in the order of its fields, each empty when it is missing: from a table, or from an array
with the fields in order. -/
def sectionTexts (name : String) (shape : String) (fields : List String) : Value → Except LoadFailure (List String)
  | .table ms => fields.mapM fun f =>
    match Members.find? f ms with
    | some v => text [name, f] v
    | none => .ok ""
  | .array vs => (List.range fields.length).mapM fun i =>
    match vs[i]? with
    | some v => text [name, toString i] v
    | none => .ok ""
  | v => .error (.wrongType v.describe ("struct " ++ shape) [name])

/-- The texts of a section of the merged layers. -/
def sectionOf (name : String) (shape : String) (fields : List String) : Value → Except LoadFailure (List String)
  | .table ms =>
    match Members.find? name ms with
    | some v => sectionTexts name shape fields v
    | none => .ok (fields.map fun _ => "")
  | v => .error (.wrongType v.describe "struct PublisherConfig" [])

/-- The settings in the merged layers. -/
def ofValue (v : Value) : Except LoadFailure Settings := do
  let auth ← sectionOf "auth" "AuthConfig" ["token", "token_file"] v
  let registry ← sectionOf "registry" "RegistryConfig" ["url"] v
  return ⟨registry.headD "", auth.headD "", auth.getD 1 ""⟩

/-- The settings of a world. -/
def load (w : World) : Except LoadFailure Settings := do ofValue (← layers w)

/-- The settings of a world after its file of variables was loaded, and that world. -/
def loadWithEnvFile (w : World) : Except EnvFile.Crash (Except LoadFailure Settings × World) :=
  (EnvFile.load w).map fun w => (load w, w)

end RegistryPublisher.Settings
