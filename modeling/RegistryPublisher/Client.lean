import RegistryPublisher.Endpoint
import RegistryPublisher.Journal
import RegistryPublisher.Receipt
import RegistryPublisher.Verdict

/-!
# The registry client

Each operation asks for one request, and never again.

- `Client.setUp` sets the HTTP library up;
- `Client.publish` posts a descriptor with the token of the endpoint and accepts 200 and 201;
- `Client.validate` posts it without a token and accepts 200;
- `ClientFailure` says what went wrong, and carries the body of an answer that was not accepted.
-/

namespace RegistryPublisher

/-- Why an operation of the registry has no result. -/
inductive ClientFailure where
  /-- There was no answer, for the given reasons. -/
  | unsent (causes : List String)
  /-- The answer was not complete, for the given reasons. -/
  | unreadable (causes : List String)
  /-- The status is not one that the operation accepts. -/
  | rejected (status : Nat) (body : String)
  /-- The body of an accepted answer is not what it should be. -/
  | undecodable (e : Json.Error)
  deriving DecidableEq, Repr

namespace ClientFailure

/-- The status of an answer that was not accepted. -/
def status? : ClientFailure → Option Nat
  | rejected status _ => some status
  | _ => none

/-- The failure in words. -/
def message : ClientFailure → String
  | unsent _ => "error sending request"
  | unreadable _ => "error reading response"
  | rejected status body => "server returned status " ++ toString status ++ ": " ++ body
  | undecodable _ => "error parsing response"

/-- What the failure comes from, the nearest first. -/
def sources : ClientFailure → List String
  | unsent causes => causes
  | unreadable causes => causes
  | rejected .. => []
  | undecodable e => [e.message]

end ClientFailure

/-- A step of a command: what it gives, and the journal after it. -/
abbrev Action (ε α : Type) := ExceptT ε (StateM Journal) α

namespace Client

/-- Sets the HTTP library up. -/
def setUp (net : Network) : Except ClientFailure Unit :=
  match net.fault with
  | none => .ok ()
  | some causes => .error (.unsent causes)

/-- Asks for a request, and notes it. -/
def send (net : Network) (q : Request) : StateM Journal Reply := fun j => (net.reply q, j.record q (net.sent q))

/-- The body of a complete answer whose status is accepted. -/
def accept (accepted : List Nat) : Reply → Except ClientFailure Bytes
  | .failed causes => .error (.unsent causes)
  | .truncated _ causes => .error (.unreadable causes)
  | .complete status body =>
    if accepted.contains status then .ok body else .error (.rejected status (Utf8.lossy body))

/-- The decoded body of an accepted answer. -/
def interpret {α : Type} (accepted : List Nat) (decode : Bytes → Except Json.Error α) (reply : Reply) :
    Except ClientFailure α := do
  (decode (← accept accepted reply)).mapError .undecodable

/-- The request that publishes a descriptor. -/
def publishRequest (e : Endpoint) (d : Descriptor) : Request :=
  .post (e.urlFor Endpoint.publishPath) (e.token.map ("Bearer " ++ ·)) d.encode

/-- The request that validates a descriptor. -/
def validateRequest (e : Endpoint) (d : Descriptor) : Request :=
  .post (e.urlFor Endpoint.validatePath) none d.encode

/-- The statuses that a publication accepts. -/
def publishAccepts : List Nat := [200, 201]

/-- The statuses that a validation accepts. -/
def validateAccepts : List Nat := [200]

/-- Publishes a descriptor. -/
def publish (net : Network) (e : Endpoint) (d : Descriptor) : Action ClientFailure Receipt := do
  ExceptT.mk (return interpret publishAccepts Receipt.decode (← send net (publishRequest e d)))

/-- Asks for the verdict on a descriptor. -/
def validate (net : Network) (e : Endpoint) (d : Descriptor) : Action ClientFailure Verdict := do
  ExceptT.mk (return interpret validateAccepts Verdict.decode (← send net (validateRequest e d)))

end Client

end RegistryPublisher
