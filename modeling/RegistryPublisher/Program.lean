import RegistryPublisher.Command.Publish
import RegistryPublisher.CommandLine.Help
import RegistryPublisher.Settings.Load

/-!
# The whole program

- `Program.run` reads a command line, loads the settings and runs the command; it gives what is written, the requests
  that were sent and the exit code.
-/

namespace RegistryPublisher.Program

/-- What a run of the program leaves behind. -/
structure Result where
  exitCode : Nat
  output : Bytes
  errors : String
  requests : List Request
  deriving DecidableEq, Repr

/-- The text of a failure with what it comes from. -/
def errorText (message : String) (sources : List String) : String :=
  "mcp-publisher error: " ++ ": ".intercalate (message :: sources) ++ "\n"

/-- The result of a command line without a command. -/
def halted (h : Halt) : Result :=
  match h, h.shown? with
  | .refused r, _ => ⟨2, [], "error: " ++ r.message ++ "\n", []⟩
  | _, some text => ⟨0, Utf8.encode text, "", []⟩
  | _, none => ⟨0, [], "", []⟩

/-- The command that a command line asks for. -/
def action (w : World) (net : Network) (s : Settings) (i : Invocation) : Action Failure Unit :=
  match i.command with
  | .publish => do
    let _ ← Publish.command w net s i.registry i.file
  | .validate => do
    let _ ← Validate.command w net s i.registry i.file

/-- The result of a command. -/
def finished (x : Action Failure Unit) : Result :=
  let (result, j) := x.run (Journal.start none)
  match result with
  | .ok _ => ⟨0, j.written, "", j.requests⟩
  | .error e => ⟨1, j.written, errorText e.message e.sources, j.requests⟩

/-- The result of a process that ends where it is. -/
def crashed (c : EnvFile.Crash) : Result := ⟨101, [], c.message ++ "\n", []⟩

/-- A run of the program, and the world after it, where variables may have been set from a file. -/
def run (w : World) (net : Network) (args : List String) : Result × World :=
  match Arguments.parse args with
  | .error h => (halted h, w)
  | .ok i =>
    match Settings.loadWithEnvFile w with
    | .error c => (crashed c, w)
    | .ok (.error e, w) => (⟨1, [], errorText e.message [e.reason], []⟩, w)
    | .ok (.ok s, w) => (finished (action w net s i), w)

end RegistryPublisher.Program
