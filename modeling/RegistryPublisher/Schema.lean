/-!
# Schema identifiers and migration links

- `Schema.currentUrl` is the schema that new descriptors should name;
- `Schema.references` are the codes of issues about a descriptor's schema;
- `MigrationLinks` are the two documents that guidance on schema issues points to.
-/

namespace RegistryPublisher

namespace Schema

/-- The schema the registry accepts for new servers. -/
def currentUrl : String := "https://static.modelcontextprotocol.io/schemas/2025-12-11/server.schema.json"

/-- The history of the descriptor format. -/
def changelogUrl : String :=
  "https://github.com/modelcontextprotocol/registry/blob/main/docs/reference/server-json/CHANGELOG.md"

/-- Where the history lists the steps of a migration. -/
def checklistAnchor : String := "#migration-checklist-for-publishers"

/-- The descriptor names no schema. -/
def fieldRequired : String := "schema-field-required"

/-- The descriptor names an old schema. -/
def versionDeprecated : String := "schema-version-deprecated"

/-- The descriptor's schema has no version that can be read. -/
def versionExtractionError : String := "schema-version-extraction-error"

/-- The version of the server is a range. -/
def semanticVersionRange : String := "semantic-version-range"

/-- The codes of issues about the schema of a descriptor. -/
def references : List String := [fieldRequired, versionDeprecated, versionExtractionError]

end Schema

/-- The documents that guidance on schema issues points to. -/
structure MigrationLinks where
  checklist : String
  changelog : String
  deriving DecidableEq, Repr

/-- Both links of a changelog. -/
def MigrationLinks.ofChangelog (base : String) : MigrationLinks := ⟨base ++ Schema.checklistAnchor, base⟩

/-- The links of the registry's own changelog. -/
def MigrationLinks.standard : MigrationLinks := .ofChangelog Schema.changelogUrl

end RegistryPublisher
