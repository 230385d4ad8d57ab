import RegistryPublisher.Client
import RegistryPublisher.Login.Store

/-!
# Failures of a command

- `Failure` is why a command fails, with `Failure.message` and the texts of what it comes from, `Failure.sources`;
- `attempt`, `require` and `write` are the steps that commands are made of.
-/

namespace RegistryPublisher

/-- Why a command fails. -/
inductive Failure where
  | descriptorNotFound (path : String)
  | descriptorUnreadable (path : String) (e : FileError)
  | descriptorInvalid (path : String) (e : Json.Error)
  | notAuthenticated
  | login (e : LoginFailure)
  /-- The client cannot be set up. -/
  | client (e : ClientFailure)
  /-- The publication failed; the cause is never that of a validation after it. -/
  | publish (e : ClientFailure)
  /-- The verdict could not be had. -/
  | validate (e : ClientFailure)
  /-- The registry refused a descriptor and found nothing wrong with it. -/
  | unexplained
  /-- The descriptor is not valid. -/
  | invalid (message : String)
  | output
  deriving DecidableEq, Repr

namespace Failure

/-- The failure in words. -/
def message : Failure → String
  | descriptorNotFound path => path ++ " not found. Run 'mcp-publisher init' to create one"
  | descriptorUnreadable path _ => "failed to read " ++ path
  | descriptorInvalid path _ => "invalid JSON in " ++ path
  | notAuthenticated => "not authenticated. Run 'mcp-publisher login <method>' first"
  | login e => e.message
  | client _ => "failed to initialize registry client"
  | publish _ => "publish failed"
  | validate _ => "validation failed"
  | unexplained => "validation failed"
  | invalid message => message
  | output => "failed to write output"

/-- What the failure comes from, the nearest first. -/
def sources : Failure → List String
  | descriptorUnreadable _ e => [e.message]
  | descriptorInvalid _ e => [e.message]
  | login e => e.sources
  | client e => e.message :: e.sources
  | publish e => e.message :: e.sources
  | validate e => e.message :: e.sources
  | output => ["sink is full"]
  | _ => []

end Failure

/-! ## Steps -/

variable {ε ε' α : Type}

/-- Goes on with the failure of a step instead of failing. -/
def attempt (x : Action ε α) : Action ε' (Except ε α) := ExceptT.mk (Except.ok <$> x.run)

/-- A value that may be missing for a reason; nothing is written or sent. -/
def require (x : Except ε α) : Action ε α := ExceptT.mk (return x)

/-- Writes a text. -/
def write (s : String) : Action Failure Unit := ExceptT.mk fun j =>
  let (done, j) := j.write (Utf8.encode s)
  (if done then .ok () else .error .output, j)

end RegistryPublisher
