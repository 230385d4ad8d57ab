import RegistryPublisher.Descriptor

/-!
# Receipts

- `Receipt` is the registry's answer to a publication: the stored descriptor, and what the registry adds to it.
-/

namespace RegistryPublisher

/-- The registry's answer to a publication. -/
structure Receipt where
  server : Descriptor
  metadata : Option Json
  deriving BEq, Repr

namespace Receipt

/-- The registry's own data may be missing or `null`. -/
def shape : Json.Shape Receipt where
  name := "PublishResponse"
  fields := [
    .of "server" true Descriptor.shape.read fun d r => { r with server := d },
    .of "_meta" false Json.readOptional fun m r => { r with metadata := m }]
  positional := true
  other := Json.ignoreOther
  blank := ⟨.empty, none⟩

/-- The receipt of a text. -/
def decode (text : Bytes) : Except Json.Error Receipt := shape.decode text

/-- The registry's own data are left out when there are none. -/
def encode (r : Receipt) : Bytes := Json.renderObject <|
  Json.renderMember "server" r.server.encode ::
    match r.metadata with
    | none => []
    | some m => [Json.renderMember "_meta" m.render]

end Receipt

end RegistryPublisher
