import RegistryPublisher.Command.Failure

/-!
# Where a command goes

- `Target.registryUrl` chooses the registry: the flag, the settings, the login, the standard one;
- `Target.forPublish` also needs a token, `Target.forValidate` never uses one.
-/

namespace RegistryPublisher.Target

/-- The registry named by a flag, without blanks around it; none when nothing is left. -/
def flagUrl? (flag : Option String) : Option String := do
  let url := Text.trim (← flag)
  if url.isEmpty then none else some url

/-- The first registry that is named. -/
def registryUrl (flag : Option String) (s : Settings) (login : Option Login) : String :=
  (flagUrl? flag <|> s.registry? <|> login.bind Login.registryUrl?).getD Endpoint.standardUrl

/-- Where to publish. A configured token makes the token file irrelevant. -/
def forPublish (w : World) (s : Settings) (flag : Option String) : Except Failure Endpoint :=
  match s.token? with
  | some token => .ok ⟨registryUrl flag s none, some token⟩
  | none =>
    match Login.load w s with
    | .error e => .error (.login e)
    | .ok none => .error .notAuthenticated
    | .ok (some login) =>
      if login.token.isEmpty then .error .notAuthenticated
      else .ok ⟨registryUrl flag s (some login), some login.token⟩

/-- Where to validate. A token file that cannot be used is the same as none. -/
def forValidate (w : World) (s : Settings) (flag : Option String) : Endpoint :=
  ⟨registryUrl flag s ((Login.load w s).toOption.bind id), none⟩

end RegistryPublisher.Target
