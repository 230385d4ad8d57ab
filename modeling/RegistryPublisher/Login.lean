import RegistryPublisher.Json.Record

/-!
# Logins

- `Login` is what an earlier login left in the token file: a token, and the registry it is for.
-/

namespace RegistryPublisher

/-- A recorded login. -/
structure Login where
  token : String
  /-- The registry of the token; empty for the standard one. -/
  registry : String
  deriving DecidableEq, Repr

namespace Login

/-- The registry of the token, if one is recorded. -/
def registryUrl? (l : Login) : Option String := if l.registry.isEmpty then none else some l.registry

/-- Both fields may be missing. -/
def shape : Json.Shape Login where
  name := "TokenRecord"
  fields := [
    .of "token" false (fun _ => Json.readText) fun s l => { l with token := s },
    .of "registry" false (fun _ => Json.readText) fun s l => { l with registry := s }]
  positional := true
  other := Json.ignoreOther
  blank := ⟨"", ""⟩

/-- The login of a text. -/
def decode (text : Bytes) : Except Json.Error Login := shape.decode text

/-- Both fields in order. -/
def encode (l : Login) : Bytes := Json.renderObject [
  Json.renderMember "token" (Json.renderString l.token),
  Json.renderMember "registry" (Json.renderString l.registry)]

end Login

end RegistryPublisher
