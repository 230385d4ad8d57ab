import RegistryPublisher.Login
import RegistryPublisher.Settings
import RegistryPublisher.World

/-!
# The token file

- `Login.path?` is where the token file is, `Login.load` reads it; a file that is not there is no login.
-/

namespace RegistryPublisher

/-- Why the token file cannot be used. -/
inductive LoginFailure where
  /-- There is no home directory that it could be in. -/
  | homeless
  | unreadable (path : String) (e : FileError)
  | invalid (path : String) (e : Json.Error)
  deriving DecidableEq, Repr

namespace LoginFailure

/-- The failure in words. -/
def message : LoginFailure → String
  | homeless => "failed to get home directory"
  | unreadable path _ => "failed to read token " ++ path
  | invalid path _ => "invalid token data in " ++ path

/-- What the failure comes from. -/
def sources : LoginFailure → List String
  | homeless => []
  | unreadable _ e => [e.message]
  | invalid _ e => [e.message]

end LoginFailure

namespace Login

/-- The name of the token file in the home directory. -/
def fileName : String := ".mcp_publisher_token"

/-- The configured token file, or the one in the home directory; none when there is no home directory. -/
def path? (w : World) (s : Settings) : Option String :=
  if s.tokenFile.isEmpty then w.home?.map (Path.join · fileName) else some s.tokenFile

/-- The login in a file, if the file is there. -/
def loadFile (w : World) (path : String) : Except LoginFailure (Option Login) :=
  match w.read path with
  | .error .notFound => .ok none
  | .error e => .error (.unreadable path e)
  | .ok content =>
    match decode content with
    | .ok l => .ok (some l)
    | .error e => .error (.invalid path e)

/-- The recorded login, if there is a token file. -/
def load (w : World) (s : Settings) : Except LoginFailure (Option Login) :=
  match path? w s with
  | none => .error .homeless
  | some path => loadFile w path

end Login

end RegistryPublisher
