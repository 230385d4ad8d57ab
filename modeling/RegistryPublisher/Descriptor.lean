import RegistryPublisher.Json.Record

/-!
# Server descriptors

- `Descriptor` is what a server publishes: four text fields, and everything else as it was read;
- `Descriptor.decode` reads a descriptor, `Descriptor.encode` writes its canonical form.
-/

namespace RegistryPublisher

/-- A server descriptor. The members of `extra` stand in key order. -/
structure Descriptor where
  schema : String
  name : String
  description : String
  version : String
  extra : List (String × Json)
  deriving BEq, Repr

namespace Descriptor

/-- A descriptor without any content. -/
def empty : Descriptor := ⟨"", "", "", "", []⟩

/-- Puts a member among the others. -/
def withExtra (d : Descriptor) (key : String) (v : Json) : Descriptor := { d with extra := Members.insert key v d.extra }

/-! ## Reading -/

/-- A text field, for which `null` is the same as nothing. -/
def textField (name : String) (put : String → Descriptor → Descriptor) : Json.Field Descriptor :=
  .of name false (fun _ => Json.readTextOrNull) put

/-- The four text fields, and any other key with any value. -/
def shape : Json.Shape Descriptor where
  name := "ServerDescriptor"
  fields := [
    textField "$schema" fun s d => { d with schema := s },
    textField "name" fun s d => { d with name := s },
    textField "description" fun s d => { d with description := s },
    textField "version" fun s d => { d with version := s }]
  positional := false
  other := fun key depth bs => do
    let (v, rest) ← Json.readValue depth bs
    return (fun d => d.withExtra key v, rest)
  blank := empty

/-- The descriptor of a text. -/
def decode (text : Bytes) : Except Json.Error Descriptor := shape.decode text

/-! ## Writing -/

/-- The schema is left out when it is empty. -/
def schemaMembers (d : Descriptor) : List Bytes :=
  if d.schema.isEmpty then [] else [Json.renderMember "$schema" (Json.renderString d.schema)]

/-- The other text fields are always written. -/
def textMembers (d : Descriptor) : List Bytes := [
  Json.renderMember "name" (Json.renderString d.name),
  Json.renderMember "description" (Json.renderString d.description),
  Json.renderMember "version" (Json.renderString d.version)]

/-- The canonical form: text fields in a fixed order, then the other members in key order, without white space. -/
def encode (d : Descriptor) : Bytes :=
  Json.renderObject (d.schemaMembers ++ d.textMembers ++ Json.renderMembers d.extra)

end Descriptor

end RegistryPublisher
