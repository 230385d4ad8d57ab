import RegistryPublisher.Command.Load
import RegistryPublisher.Command.Target

/-!
# Registries and tokens

- `World.Holds`: what a file decodes to;
- `Login.Stored`, `Login.stored?` and `Login.recorded?`: the login in the token file, and the registry that it records;
- `Target.Token`: the token that there is, configured or stored; with one a publication goes to `Target.publishUrl`
  (`forPublish_eq_ok_iff`);
- `Target.Chosen`: the registry that the first of four sources names (`registryUrl_chosen`);
- `forPublish_forValidate`: a descriptor is published to the registry that validates it, unless a configured token keeps
  the token file out and this file alone names a registry.
-/

namespace RegistryPublisher

/-- The file at a path holds what its text decodes to. -/
def World.Holds {α : Type} (w : World) (path : String) (decode : Bytes → Except Json.Error α) (x : α) : Prop :=
  ∃ text, w.read path = .ok text ∧ decode text = .ok x

theorem Descriptor.load_eq_ok_iff {w : World} {file : String} {d : Descriptor} :
    Descriptor.load w file = .ok d ↔ w.Holds file Descriptor.decode d := by
  constructor
  · intro h
    unfold load at h
    split at h
    · cases h
    · cases h
    next text hr =>
    cases hd : decode text with
    | ok d' => rw [hd] at h; cases h; exact ⟨text, hr, hd⟩
    | error e => rw [hd] at h; cases h
  · rintro ⟨text, hr, hd⟩
    rw [load, hr]
    simp only [hd]
    rfl

/-! ## The token file -/

namespace Login

variable {w : World} {s : Settings} {l : Login}

/-- The token file holds a login. -/
def Stored (w : World) (s : Settings) (l : Login) : Prop := ∃ path, path? w s = some path ∧ w.Holds path decode l

theorem loadFile_eq_some_iff {path : String} : loadFile w path = .ok (some l) ↔ w.Holds path decode l := by
  constructor
  · intro h
    unfold loadFile at h
    split at h
    · cases h
    · cases h
    next text hr =>
    split at h
    · next hd =>
      cases h
      exact ⟨text, hr, hd⟩
    · cases h
  · rintro ⟨text, hr, hd⟩
    rw [loadFile, hr]
    simp only [hd]

theorem load_of_path {path : String} (h : path? w s = some path) : load w s = loadFile w path := by rw [load, h]

theorem load_eq_some_iff : load w s = .ok (some l) ↔ Stored w s l := by
  constructor
  · intro h
    cases hp : path? w s with
    | none => rw [load, hp] at h; cases h
    | some path => exact ⟨path, hp, loadFile_eq_some_iff.1 ((load_of_path hp).symm.trans h)⟩
  · rintro ⟨path, hp, h⟩
    exact (load_of_path hp).trans (loadFile_eq_some_iff.2 h)

/-- The login in the token file; none when the file cannot be used. -/
def stored? (w : World) (s : Settings) : Option Login := (load w s).toOption.bind id

theorem stored?_eq_some_iff : stored? w s = some l ↔ Stored w s l := by
  rw [← load_eq_some_iff, stored?]
  cases load w s with
  | error e => exact ⟨nofun, nofun⟩
  | ok x => exact ⟨fun h => congrArg Except.ok h, Except.ok.inj⟩

/-- The registry that the token file records; none when the file cannot be used. -/
def recorded? (w : World) (s : Settings) : Option String := (stored? w s).bind registryUrl?

theorem recorded?_eq_some_iff {url : String} :
    recorded? w s = some url ↔ ∃ l, Stored w s l ∧ l.registry = url ∧ url ≠ "" := by
  have hl : ∀ l : Login, l.registryUrl? = some url ↔ l.registry = url ∧ url ≠ "" := by
    intro l
    unfold registryUrl?
    split
    · next h =>
      rw [String.isEmpty_iff] at h
      exact ⟨nofun, fun ⟨e, hne⟩ => absurd (e.symm.trans h) hne⟩
    · next h =>
      rw [String.isEmpty_iff] at h
      exact ⟨fun e => Option.some.inj e ▸ ⟨rfl, h⟩, fun e => congrArg some e.1⟩
  simp only [recorded?, Option.bind_eq_some_iff, stored?_eq_some_iff, hl]

end Login

namespace Target

open Login (Stored recorded?)

variable {w : World} {s : Settings} {flag : Option String} {e : Endpoint}

/-! ## Tokens -/

/-- The token that there is: a configured one, or else that of a stored login. -/
inductive Token (w : World) (s : Settings) : String → Prop
  | configured (h : s.token ≠ "") : Token w s s.token
  | stored {l : Login} (h : s.token = "") (stored : Stored w s l) (hl : l.token ≠ "") : Token w s l.token

/-- The address of a publication: the token file counts only for its own token. -/
def publishUrl (w : World) (s : Settings) (flag : Option String) : String :=
  registryUrl flag s (if s.token = "" then Login.stored? w s else none)

/-- There is somewhere to publish exactly when there is a token. -/
theorem forPublish_eq_ok_iff :
    forPublish w s flag = .ok e ↔ ∃ token, Token w s token ∧ e = ⟨publishUrl w s flag, some token⟩ := by
  unfold forPublish Settings.token? publishUrl
  by_cases ht : s.token = ""
  · rw [if_pos (String.isEmpty_iff.2 ht), if_pos ht]
    constructor
    · intro h
      simp only at h
      split at h
      · cases h
      · cases h
      next l hl =>
      have hstored := Login.load_eq_some_iff.1 hl
      split at h
      · cases h
      · next hne =>
        cases h
        rw [Login.stored?_eq_some_iff.2 hstored]
        exact ⟨l.token, .stored ht hstored fun e => hne (String.isEmpty_iff.2 e), rfl⟩
    · rintro ⟨_, hne | ⟨_, hl, hne⟩, rfl⟩
      · exact absurd ht hne
      · rw [Login.stored?_eq_some_iff.2 hl]
        simp only [Login.load_eq_some_iff.2 hl, if_neg fun h => hne (String.isEmpty_iff.1 h)]
  · rw [if_neg fun h => ht (String.isEmpty_iff.1 h), if_neg ht]
    constructor
    · intro h
      cases h
      exact ⟨s.token, .configured ht, rfl⟩
    · rintro ⟨_, - | ⟨h, -⟩, rfl⟩
      · rfl
      · exact absurd h ht

/-! ## Registries -/

/-- The registry that the first of four sources names: the flag, the settings, the token file, the standard. -/
inductive Chosen (flag : Option String) (s : Settings) (recorded : Option String) : String → Prop
  | flag {url : String} (h : flagUrl? flag = some url) : Chosen flag s recorded url
  | settings {url : String} (hf : flagUrl? flag = none) (h : s.registry? = some url) : Chosen flag s recorded url
  | recorded {url : String} (hf : flagUrl? flag = none) (hs : s.registry? = none) (h : recorded = some url) :
      Chosen flag s recorded url
  | standard (hf : flagUrl? flag = none) (hs : s.registry? = none) (h : recorded = none) :
      Chosen flag s recorded Endpoint.standardUrl

theorem registryUrl_chosen (flag : Option String) (s : Settings) (login : Option Login) :
    Chosen flag s (login.bind Login.registryUrl?) (registryUrl flag s login) := by
  unfold registryUrl
  cases hf : flagUrl? flag with
  | some url => exact .flag hf
  | none =>
    cases hs : s.registry? with
    | some url => exact .settings hf hs
    | none =>
      cases hl : login.bind Login.registryUrl? with
      | some url => exact .recorded hf hs rfl
      | none => exact .standard hf hs rfl

theorem forValidate_chosen (w : World) (s : Settings) (flag : Option String) :
    Chosen flag s (recorded? w s) (forValidate w s flag).baseUrl :=
  registryUrl_chosen ..

theorem publishUrl_chosen (w : World) (s : Settings) (flag : Option String) :
    Chosen flag s (if s.token = "" then recorded? w s else none) (publishUrl w s flag) := by
  have h := registryUrl_chosen flag s (if s.token = "" then Login.stored? w s else none)
  by_cases ht : s.token = "" <;> simpa [publishUrl, recorded?, ht] using h

/-- The registry depends on the flag, the configured registry and the recorded one, and on the last one only when
neither of the others names any. -/
theorem registryUrl_congr {s' : Settings} {login login' : Option Login} (hs : s'.registryUrl = s.registryUrl)
    (h : login'.bind Login.registryUrl? = login.bind Login.registryUrl? ∨ flagUrl? flag ≠ none ∨ s.registry? ≠ none) :
    registryUrl flag s' login' = registryUrl flag s login := by
  have hr : s'.registry? = s.registry? := by simp only [Settings.registry?, hs]
  unfold registryUrl
  rw [hr]
  rcases h with h | h | h
  · rw [h]
  · obtain ⟨url, hf⟩ := Option.ne_none_iff_exists'.1 h
    simp [hf]
  · obtain ⟨url, hu⟩ := Option.ne_none_iff_exists'.1 h
    cases flagUrl? flag <;> simp [hu]

/-- Two choices are the same exactly when a source before the token file names one, or what is recorded makes no
difference. -/
theorem Chosen.eq_iff {r r' : Option String} {url url' : String} (h : Chosen flag s r url)
    (h' : Chosen flag s r' url') : url = url' ↔ flagUrl? flag ≠ none ∨ s.registry? ≠ none ∨
      r.getD Endpoint.standardUrl = r'.getD Endpoint.standardUrl := by
  cases h <;> cases h' <;> simp_all

/-- **One registry.** Where there is a publication, both commands choose the registry by the flag, the settings, the
token file and the standard, in this order; the publication leaves the token file out when a token is configured. So
they go to the same registry unless a token is configured and nothing but the token file names one. -/
theorem forPublish_forValidate (h : forPublish w s flag = .ok e) :
    Chosen flag s (recorded? w s) (forValidate w s flag).baseUrl ∧
    Chosen flag s (if s.token = "" then recorded? w s else none) e.baseUrl ∧
    (e.baseUrl = (forValidate w s flag).baseUrl ↔ s.token = "" ∨ flagUrl? flag ≠ none ∨ s.registry? ≠ none ∨
      ∀ url, recorded? w s = some url → url = Endpoint.standardUrl) := by
  have hv := forValidate_chosen w s flag
  have hp : Chosen flag s (if s.token = "" then recorded? w s else none) e.baseUrl := by
    obtain ⟨token, -, rfl⟩ := forPublish_eq_ok_iff.1 h
    exact publishUrl_chosen w s flag
  refine ⟨hv, hp, (hp.eq_iff hv).trans ?_⟩
  by_cases ht : s.token = ""
  · simp [ht]
  · cases recorded? w s <;> simp [ht, eq_comm]

/-- The token file of a login at a registry that is not the standard one. -/
def loginText : Bytes := Utf8.encode "\x7b\"token\":\"x\",\"registry\":\"http://r\"\x7d"

theorem decode_loginText : Login.decode loginText = .ok ⟨"x", "http://r"⟩ := by
  -- the bytes are written out, so that the reader need not encode the string for each of them
  have htext : loginText = [
    0x7b, 0x22, 0x74, 0x6f, 0x6b, 0x65, 0x6e, 0x22, 0x3a, 0x22, 0x78, 0x22, 0x2c, 0x22, 0x72, 0x65, 0x67, 0x69,
    0x73, 0x74, 0x72, 0x79, 0x22, 0x3a, 0x22, 0x68, 0x74, 0x74, 0x70, 0x3a, 0x2f, 0x2f, 0x72, 0x22, 0x7d] := by decide
  rw [htext]
  rfl

/-- A world with nothing but this token file. -/
def loginWorld : World where
  read path := if path = "tok" then .ok loginText else .error .notFound
  environment := []
  directory := "/"
  accountHome := some "/"

theorem stored_loginWorld (token : String) : Stored loginWorld ⟨"", token, "tok"⟩ ⟨"x", "http://r"⟩ := by
  have hread : loginWorld.read "tok" = .ok loginText := by simp [loginWorld]
  exact ⟨"tok", rfl, loginText, hread, decode_loginText⟩

/-- Without a configured token the recorded registry is used for both. -/
theorem forPublish_forValidate_stored :
    let s : Settings := ⟨"", "", "tok"⟩
    forPublish loginWorld s none = .ok ⟨"http://r", some "x"⟩ ∧ (forValidate loginWorld s none).baseUrl = "http://r" := by
  intro s
  have hstored := stored_loginWorld ""
  have hurl : publishUrl loginWorld s none = "http://r" := by
    rw [publishUrl, if_pos rfl, Login.stored?_eq_some_iff.2 hstored]
    rfl
  have hp : forPublish loginWorld s none = .ok ⟨"http://r", some "x"⟩ :=
    forPublish_eq_ok_iff.2 ⟨"x", .stored rfl hstored (by decide), by rw [hurl]⟩
  exact ⟨hp, ((forPublish_forValidate hp).2.2.2 (Or.inl rfl)).symm⟩

/-- With a configured token it is used for validation only. -/
theorem forPublish_elsewhere :
    let s : Settings := ⟨"", "t", "tok"⟩
    forPublish loginWorld s none = .ok ⟨Endpoint.standardUrl, some "t"⟩ ∧
      (forValidate loginWorld s none).baseUrl = "http://r" ∧ Endpoint.standardUrl ≠ "http://r" := by
  intro s
  refine ⟨rfl, ?_, by decide⟩
  rw [forValidate, Login.load_eq_some_iff.2 (stored_loginWorld "t")]
  rfl

end Target

end RegistryPublisher
