import RegistryPublisher.Command.Load
import RegistryPublisher.Command.Target
import RegistryPublisher.Report

/-!
# Validating

- `Validate.run` asks for one verdict and writes its report;
- `Validate.command` does so for a file and says that it is valid.
-/

namespace RegistryPublisher.Validate

/-- Writes what a verdict says about a descriptor; a verdict of invalidity is a failure. -/
def judge (r : Reporter) (d : Descriptor) (v : Verdict) : Action Failure Unit := do
  let report := r.report v d
  write report.text
  match report.error with
  | some message => throw (.invalid message)
  | none => return

/-- Validates a descriptor. -/
def run (net : Network) (r : Reporter) (e : Endpoint) (d : Descriptor) : Action Failure Verdict := do
  write ("Validating against " ++ e.baseUrl ++ "...\n")
  match ← attempt (Client.validate net e d) with
  | .error cause => throw (.validate cause)
  | .ok v => do
    judge r d v
    return v

/-- Validates the descriptor of a file. -/
def command (w : World) (net : Network) (s : Settings) (flag : Option String) (file : String) :
    Action Failure Verdict := do
  let d ← require (Descriptor.load w file)
  require ((Client.setUp net).mapError .client)
  let v ← run net .standard (Target.forValidate w s flag) d
  write ("✅ " ++ (Path.fileName? file).getD file ++ " is valid\n")
  return v

end RegistryPublisher.Validate
