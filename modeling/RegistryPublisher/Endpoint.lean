/-!
# Endpoints

- `Endpoint` is where requests go, and with which token;
- `Endpoint.urlFor` joins a path to the address with one slash at least between them.
-/

namespace RegistryPublisher

/-- Where requests go, and the token they may carry. -/
structure Endpoint where
  baseUrl : String
  token : Option String
  deriving DecidableEq, Repr

namespace Endpoint

/-- The registry that is used when no other is named. -/
def standardUrl : String := "https://registry.modelcontextprotocol.io"

/-- Where descriptors are published. -/
def publishPath : String := "v0/publish"

/-- Where descriptors are validated. -/
def validatePath : String := "v0/validate"

/-- The address of a path; a slash is put between them unless the base ends in one. -/
def urlFor (e : Endpoint) (path : String) : String :=
  if e.baseUrl.toList.getLast? = some '/' then e.baseUrl ++ path else e.baseUrl ++ "/" ++ path

end Endpoint

end RegistryPublisher
