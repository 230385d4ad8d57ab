import RegistryPublisher.Command.Validate

/-!
# Publishing

- `Publish.run` publishes a descriptor; when the registry says that it cannot be processed, `Publish.diagnose` asks for
  a verdict to explain why;
- `Publish.command` does so for a file.
-/

namespace RegistryPublisher.Publish

/-- The status of an answer that says a descriptor cannot be processed. -/
def unprocessable : Nat := 422

/-- Explains a refused publication by a verdict. When there is no verdict the refusal itself is the failure. -/
def diagnose (net : Network) (r : Reporter) (e : Endpoint) (d : Descriptor) (refusal : ClientFailure) :
    Action Failure Receipt := do
  match ← attempt (Client.validate net e d) with
  | .error _ => throw (.publish refusal)
  | .ok v => do
    Validate.judge r d v
    throw .unexplained

/-- Publishes a descriptor. -/
def run (net : Network) (r : Reporter) (e : Endpoint) (d : Descriptor) : Action Failure Receipt := do
  write ("Publishing to " ++ e.baseUrl ++ "...\n")
  match ← attempt (Client.publish net e d) with
  | .ok receipt => do
    write "✓ Successfully published\n"
    write ("✓ Server " ++ receipt.server.name ++ " version " ++ receipt.server.version ++ "\n")
    return receipt
  | .error cause =>
    if cause.status? = some unprocessable then do
      write "Validation failed. Checking detailed validation errors...\n"
      write "\n"
      diagnose net r e d cause
    else throw (.publish cause)

/-- Publishes the descriptor of a file. -/
def command (w : World) (net : Network) (s : Settings) (flag : Option String) (file : String) :
    Action Failure Receipt := do
  let d ← require (Descriptor.load w file)
  let e ← require (Target.forPublish w s flag)
  require ((Client.setUp net).mapError .client)
  run net .standard e d

end RegistryPublisher.Publish
