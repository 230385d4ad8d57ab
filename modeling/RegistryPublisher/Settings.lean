import RegistryPublisher.Text.Blank

/-!
# Settings

- `Settings` are the three values that users configure, each empty when it is not set;
- `Settings.registry?` and `Settings.token?` give a value only where it says something.
-/

namespace RegistryPublisher

/-- What users configure; an empty value is the same as none. -/
structure Settings where
  registryUrl : String
  token : String
  tokenFile : String
  deriving DecidableEq, Repr

namespace Settings

/-- Nothing is configured. -/
def empty : Settings := ⟨"", "", ""⟩

/-- The configured registry without blanks around it; none when nothing is left. -/
def registry? (s : Settings) : Option String :=
  let url := Text.trim s.registryUrl
  if url.isEmpty then none else some url

/-- The configured token. -/
def token? (s : Settings) : Option String := if s.token.isEmpty then none else some s.token

end Settings

end RegistryPublisher
