import RegistryPublisher.Issue

/-!
# Verdicts

- `Verdict` is the registry's answer to a validation: whether the descriptor is valid, and a list of issues, which a
  valid descriptor may have too;
- `Verdict.firstSchemaIssue` is the first issue about the schema, with its position.
-/

namespace RegistryPublisher

/-- The registry's answer to a validation. -/
structure Verdict where
  valid : Bool
  issues : List Issue
  deriving DecidableEq, Repr

namespace Verdict

/-- The first issue about the schema, and how many issues come before it. -/
def firstSchemaIssue (v : Verdict) : Option (Nat × Issue) :=
  match v.issues.findIdx? Issue.isSchemaIssue with
  | none => none
  | some n => v.issues[n]?.map fun i => (n, i)

/-- The issues may be missing. -/
def shape : Json.Shape Verdict where
  name := "ValidationResult"
  fields := [
    .of "valid" true (fun _ => Json.readFlag) fun b v => { v with valid := b },
    .of "issues" false (Json.readList Issue.shape.read) fun is v => { v with issues := is }]
  positional := true
  other := Json.ignoreOther
  blank := ⟨false, []⟩

/-- The verdict of a text. -/
def decode (text : Bytes) : Except Json.Error Verdict := shape.decode text

/-- Both fields in order. -/
def encode (v : Verdict) : Bytes := Json.renderObject [
  Json.renderMember "valid" (Json.renderBool v.valid),
  Json.renderMember "issues" (0x5b :: (Json.separated (v.issues.map Issue.encode) ++ [0x5d]))]

end Verdict

end RegistryPublisher
