import RegistryPublisher.Descriptor
import RegistryPublisher.Verdict

/-!
# Reports

What the user reads about a verdict.

- `Reporter.report` gives the text for the console and, when the descriptor is not valid, one message with all issues;
- the first issue about the schema is explained by `Reporter.remediation?`, all others are listed and numbered.
-/

namespace RegistryPublisher

/-- What the user reads about a verdict. -/
structure Report where
  text : String
  /-- The message of the failure; none for a valid descriptor. -/
  error : Option String
  deriving DecidableEq, Repr

/-- How an issue about the schema is explained: on the console, and inside a message. -/
structure Remediation where
  text : String
  message : String
  deriving DecidableEq, Repr

/-- The schema and the documents that explanations point to. -/
structure Reporter where
  currentSchema : String
  links : MigrationLinks
  deriving DecidableEq, Repr

/-! ## Single issues -/

namespace Issue

/-- What the numbered forms of an issue start with. -/
def heading (n : Nat) (i : Issue) : String :=
  toString n ++ ". [" ++ i.severity.name ++ "] " ++ i.path ++ " (" ++ i.kind.name ++ ")"

/-- An issue as a block of lines. -/
def block (n : Nat) (i : Issue) : String :=
  i.heading n ++ "\n   " ++ i.message ++ "\n"
    ++ (if i.reference.isEmpty then "" else "   Reference: " ++ i.reference ++ "\n") ++ "\n"

/-- An issue in one line. -/
def entry (n : Nat) (i : Issue) : String :=
  i.heading n ++ ": " ++ i.message ++ (if i.reference.isEmpty then "" else " (reference: " ++ i.reference ++ ")")

end Issue

/-- Applies `f` to each item and its number, counted from one. -/
def numbered {α β : Type} (f : Nat → α → β) (items : List α) : List β := (items.zipIdx 1).map fun p => f p.2 p.1

/-- A string without the full stops at its end. -/
def withoutStops (s : String) : String := String.ofList (s.toList.reverse.dropWhile (· == '.')).reverse

/-! ## Issues about the schema -/

namespace MigrationLinks

/-- The links on lines of their own. -/
def lines (l : MigrationLinks) : String :=
  "📋 Migration checklist: " ++ l.checklist ++ "\n📖 Full changelog with examples: " ++ l.changelog ++ "\n\n"

/-- The links in one line. -/
def phrase (l : MigrationLinks) : String :=
  "📋 Migration checklist: " ++ l.checklist ++ " 📖 Full changelog with examples: " ++ l.changelog

end MigrationLinks

namespace Reporter

/-- The reporter for the registry's current schema. -/
def standard : Reporter := ⟨Schema.currentUrl, .standard⟩

/-- The statement that there is no schema. -/
def requiredHeadline : String := "$schema field is required"

/-- What to do about a missing schema. -/
def initHint : String :=
  "Run 'mcp-publisher init' to create a new server.json with the correct schema, "
    ++ "or update your existing server.json file."

/-- What to do about an old schema. -/
def migrateHint : String := "Migrate to the current schema format for new servers."

/-- Explains a missing schema. -/
def fieldRequired (r : Reporter) (i : Issue) : Remediation :=
  let said := withoutStops i.message
  let opening := if said = requiredHeadline then "" else said ++ ". "
  { text := requiredHeadline ++ ".\n\nExpected current schema: " ++ r.currentSchema ++ "\n\n" ++ initHint ++ "\n\n"
      ++ r.links.lines
    message := opening ++ requiredHeadline ++ ". Expected current schema: " ++ r.currentSchema ++ ". " ++ initHint ++ " "
      ++ r.links.phrase }

/-- Explains an old schema; a warning has a line of its own kind. -/
def versionDeprecated (r : Reporter) (i : Issue) (schema : String) : Remediation :=
  let notice :=
    if i.severity = .warning then "⚠️  Deprecated schema detected: " ++ schema
    else "deprecated schema detected: " ++ schema ++ "."
  { text := notice ++ "\n\nExpected current schema: " ++ r.currentSchema ++ "\n\n" ++ migrateHint ++ "\n\n"
      ++ r.links.lines
    message := withoutStops i.message ++ ". deprecated schema detected: " ++ schema ++ ". Expected current schema: "
      ++ r.currentSchema ++ ". " ++ migrateHint ++ " " ++ r.links.phrase }

/-- Explains a schema whose version cannot be read. -/
def versionExtractionError (r : Reporter) (i : Issue) : Remediation :=
  { text := withoutStops i.message ++ ".\n\n" ++ r.links.lines
    message := withoutStops i.message ++ ". " ++ r.links.phrase }

/-- The explanation that the code of an issue asks for. -/
def remediation? (r : Reporter) (i : Issue) (d : Descriptor) : Option Remediation :=
  if i.reference = Schema.fieldRequired then some (r.fieldRequired i)
  else if i.reference = Schema.versionDeprecated then some (r.versionDeprecated i d.schema)
  else if i.reference = Schema.versionExtractionError then some (r.versionExtractionError i)
  else none

/-! ## The report -/

/-- The position of the issue that is explained, with its explanation. -/
def explained (r : Reporter) (v : Verdict) (d : Descriptor) : Option (Nat × Remediation) := do
  let (n, i) ← v.firstSchemaIssue
  return (n, ← r.remediation? i d)

/-- The issues that are listed: all but the explained one. -/
def listed (r : Reporter) (v : Verdict) (d : Descriptor) : List Issue :=
  match r.explained v d with
  | none => v.issues
  | some (n, _) => v.issues.eraseIdx n

/-- The text on the console. -/
def text (r : Reporter) (v : Verdict) (d : Descriptor) : String :=
  let opening := match r.explained v d with
    | none => ""
    | some (_, m) => m.text
  if v.valid then opening
  else
    opening ++ "❌ Validation failed with " ++ toString v.issues.length ++ " issue(s):\n\n"
      ++ String.join (numbered Issue.block (r.listed v d))

/-- The parts of the message of a failure. -/
def messageParts (r : Reporter) (v : Verdict) (d : Descriptor) : List String :=
  (match r.explained v d with
    | none => []
    | some (_, m) => [m.message])
  ++ (match r.listed v d with
    | [] => []
    | is => ["validation failed with " ++ toString v.issues.length ++ " issue(s): "
        ++ "; ".intercalate (numbered Issue.entry is)])

/-- The message of a failure. -/
def message (r : Reporter) (v : Verdict) (d : Descriptor) : String :=
  match r.messageParts v d with
  | [] => "validation failed"
  | parts => "\n".intercalate parts

/-- What the user reads about a verdict on a descriptor. -/
def report (r : Reporter) (v : Verdict) (d : Descriptor) : Report :=
  ⟨r.text v d, if v.valid then none else some (r.message v d)⟩

end Reporter

end RegistryPublisher
