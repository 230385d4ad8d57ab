import RegistryPublisher.Command.Failure

/-!
# Loading a descriptor

- `Descriptor.load` reads the descriptor of a file.
-/

namespace RegistryPublisher

/-- The descriptor of a file. -/
def Descriptor.load (w : World) (path : String) : Except Failure Descriptor :=
  match w.read path with
  | .error .notFound => .error (.descriptorNotFound path)
  | .error e => .error (.descriptorUnreadable path e)
  | .ok content => (decode content).mapError (.descriptorInvalid path)

end RegistryPublisher
