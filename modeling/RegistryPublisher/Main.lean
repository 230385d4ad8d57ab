import RegistryPublisher.Program

/-!
# The command line program

Collects what the program may read, runs it, and prints what it writes. There is no transport: every registry is out of
reach.
-/

namespace RegistryPublisher.Main

/-- Why the system could not read a file. -/
def fileError : IO.Error → FileError
  | .noFileOrDirectory .. => .notFound
  | .inappropriateType _ code _ => if code = 21 then .isDirectory else .notDirectory
  | .invalidArgument _ _ "name too long" => .nameTooLong
  | e => .other e.toString

/-- A path that the system can be asked about. -/
def withoutNul {α : Type} (path : String) (ask : IO (Except FileError α)) : IO (Except FileError α) := do
  if path.toList.contains (Char.ofNat 0) then return .error .nulInPath else ask

/-- Reads a file. -/
def readFile (path : String) : IO (Except FileError Bytes) := withoutNul path do
  match ← (IO.FS.readBinFile path).toBaseIO with
  | .ok content => return .ok content.toList
  | .error e => return .error (fileError e)

/-- Says what there is at a path below a directory. -/
def statFile (path : String) : IO (Except FileError PathKind) := withoutNul path do
  match ← ((← IO.currentDir) / path).metadata.toBaseIO with
  | .ok m => return .ok (match m.type with
    | .file => .file
    | _ => .other)
  | .error e => return .error (fileError e)

/-- Adds files to what a world can see. -/
def withFiles (w : World) (paths : List String) : IO World := do
  let contents ← paths.mapM fun path => return (path, ← readFile path)
  let kinds ← paths.mapM fun path => return (path, ← statFile path)
  return { w with
    read := fun path => (contents.lookup path).getD (w.read path)
    stat := fun path => (kinds.lookup path).getD (w.stat path) }

/-- The variables of the process. -/
def processEnvironment : IO Environment := do
  let content ← IO.FS.readBinFile "/proc/self/environ"
  return ((Utf8.lossy content.toList).splitOn "\x00").filterMap fun v =>
    match v.splitOn "=" with
    | name :: value@(_ :: _) => some (name, "=".intercalate value)
    | _ => none

/-- A relative path below a directory and those above it, or an absolute path. -/
def candidates (w : World) (path : String) : List String :=
  path :: (Path.ancestors w.directory).map fun d => Path.join d path

/-- The world of the process, with everything in it that the program reads for some arguments. -/
def world (args : List String) : IO World := do
  let w : World :=
    { read := fun _ => .error .notFound
      environment := ← processEnvironment
      directory := (← IO.currentDir).toString
      accountHome := some "/" }
  let w ← withFiles w (candidates w EnvFile.fileName)
  let later := (EnvFile.load w).toOption.getD w
  let userFiles := (Settings.userFile? later).toList.flatMap (candidates w)
  let w ← withFiles w (userFiles ++ candidates w Settings.projectFile)
  match Arguments.parse args, Settings.loadWithEnvFile w with
  | .ok i, .ok (.ok s, later) => withFiles w (i.file :: (Login.path? later s).toList)
  | _, _ => return w

/-- A network that nothing reaches. -/
def noTransport : Network := ⟨none, fun _ => ⟨[], .failed ["there is no transport"]⟩⟩

end RegistryPublisher.Main

open RegistryPublisher in
def main (args : List String) : IO UInt32 := do
  let w ← Main.world args
  let (result, _) := Program.run w Main.noTransport args
  let out ← IO.getStdout
  out.write ⟨result.output.toArray⟩
  out.flush
  let err ← IO.getStderr
  err.putStr result.errors
  err.flush
  return result.exitCode.toUInt32
