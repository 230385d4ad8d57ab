import RegistryPublisher.World.Environment
import RegistryPublisher.World.File

/-!
# The world of a command

- `World` is what a command sees of its surroundings: files, environment, current directory and home;
- `World.hasPath` and `World.hasFile` say what there is at a path, whether or not it can be read;
- `World.find?` looks for a file from the current directory upwards.
-/

namespace RegistryPublisher

/-- What a command sees of its surroundings. -/
structure World where
  /-- What reading a path gives. -/
  read : String → Except FileError Bytes
  /-- What there is at a path; a file may be there that cannot be read. -/
  stat : String → Except FileError PathKind := fun path => PathKind.ofContent (read path)
  environment : Environment
  /-- The current directory, as an absolute path. -/
  directory : String
  /-- The home directory of the account, for when the environment names none. -/
  accountHome : Option String

namespace World

/-- The home directory: the variable `HOME`, or else that of the account; an empty one is none. -/
def home? (w : World) : Option String :=
  (w.environment.get? "HOME").filter (· ≠ "") <|> w.accountHome.filter (· ≠ "")

/-- Whether there is anything at a path. -/
def hasPath (w : World) (path : String) : Bool := (w.stat path).toBool

/-- Whether there is a file at a path. -/
def hasFile (w : World) (path : String) : Bool :=
  match w.stat path with
  | .ok .file => true
  | _ => false

/-- The nearest file of a relative path, in the current directory or one above it. -/
def find? (w : World) (path : String) : Option String :=
  ((Path.ancestors w.directory).map fun d => Path.join d path).find? w.hasFile

end World

end RegistryPublisher
