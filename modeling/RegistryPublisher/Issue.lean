import RegistryPublisher.Json.Record
import RegistryPublisher.Schema

/-!
# Issues

- `Issue` is one problem that the registry found in a descriptor;
- `IssueKind.ofName` and `IssueSeverity.ofName` accept any name, and keep those they do not know as `unknown`
  (`IssueKind.ofName_name`, `IssueSeverity.ofName_name`).
-/

namespace RegistryPublisher

/-- What sort of rule an issue comes from. -/
inductive IssueKind where
  | schema
  | semantic
  | unknown
  deriving DecidableEq, Repr

/-- How bad an issue is. -/
inductive IssueSeverity where
  | error
  | warning
  | unknown
  deriving DecidableEq, Repr

namespace IssueKind

/-- The name of a kind. -/
def name : IssueKind → String
  | schema => "schema"
  | semantic => "semantic"
  | unknown => "unknown"

/-- The kind of a name; there may be more kinds than are known here. -/
def ofName (s : String) : IssueKind :=
  if s = "schema" then schema else if s = "semantic" then semantic else unknown

theorem ofName_name (k : IssueKind) : ofName k.name = k := by cases k <;> decide

/-- A kind is read from a name. -/
def read (depth : Nat) : Json.Reader IssueKind := fun bs => do
  let (s, rest) ← Json.readName depth bs
  return (ofName s, rest)

/-- A kind is written as its name. -/
def encode (k : IssueKind) : Bytes := Json.renderString k.name

end IssueKind

namespace IssueSeverity

/-- The name of a severity. -/
def name : IssueSeverity → String
  | error => "error"
  | warning => "warning"
  | unknown => "unknown"

/-- The severity of a name; there may be more severities than are known here. -/
def ofName (s : String) : IssueSeverity :=
  if s = "error" then error else if s = "warning" then warning else unknown

theorem ofName_name (k : IssueSeverity) : ofName k.name = k := by cases k <;> decide

/-- A severity is read from a name. -/
def read (depth : Nat) : Json.Reader IssueSeverity := fun bs => do
  let (s, rest) ← Json.readName depth bs
  return (ofName s, rest)

/-- A severity is written as its name. -/
def encode (k : IssueSeverity) : Bytes := Json.renderString k.name

end IssueSeverity

/-- A problem that the registry found. -/
structure Issue where
  kind : IssueKind
  /-- Which field is concerned. -/
  path : String
  message : String
  severity : IssueSeverity
  /-- The code of the rule; it may be empty. -/
  reference : String
  deriving DecidableEq, Repr

namespace Issue

/-- Whether the issue is about the schema of the descriptor. -/
def isSchemaIssue (i : Issue) : Bool := Schema.references.contains i.reference

/-- Path and reference may be missing. -/
def shape : Json.Shape Issue where
  name := "ValidationIssue"
  fields := [
    .of "type" true IssueKind.read fun k i => { i with kind := k },
    .of "path" false (fun _ => Json.readText) fun s i => { i with path := s },
    .of "message" true (fun _ => Json.readText) fun s i => { i with message := s },
    .of "severity" true IssueSeverity.read fun k i => { i with severity := k },
    .of "reference" false (fun _ => Json.readText) fun s i => { i with reference := s }]
  positional := true
  other := Json.ignoreOther
  blank := ⟨.unknown, "", "", .unknown, ""⟩

/-- All fields in order. -/
def encode (i : Issue) : Bytes := Json.renderObject [
  Json.renderMember "type" i.kind.encode,
  Json.renderMember "path" (Json.renderString i.path),
  Json.renderMember "message" (Json.renderString i.message),
  Json.renderMember "severity" i.severity.encode,
  Json.renderMember "reference" (Json.renderString i.reference)]

end Issue

end RegistryPublisher
