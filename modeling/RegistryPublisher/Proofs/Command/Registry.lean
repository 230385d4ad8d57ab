import RegistryPublisher.Proofs.Command.Target
import RegistryPublisher.Proofs.Text.Trim

/-!
# The named registry

- `Target.Says` and `Target.Silent`: what a source says about the registry, if it is not blank;
- `Target.First`: the registry that the first of some sources names, else the standard one;
- `registryUrl_first`: the registry is the one that flag, settings and login name first, unless the flag and the settings
  are silent and the login records a text with blanks around it, which is then used as it is.
-/

namespace RegistryPublisher.Target

open Text (AllBlank Tidy Trimmed)

/-! ## Sources -/

/-- A source says what is left of its text without the blanks around it, if there is a text that is not blank. -/
def Says (source : Option String) (url : String) : Prop := ∃ s, source = some s ∧ ¬AllBlank s ∧ Trimmed s url

/-- A source says nothing: there is no text, or a blank one. -/
def Silent (source : Option String) : Prop := ∀ s, source = some s → AllBlank s

/-- The registry that the first source names which is not silent; if all are, the standard one. -/
inductive First : List (Option String) → String → Prop
  | named {source : Option String} {sources : List (Option String)} {url : String} (h : Says source url) :
      First (source :: sources) url
  | silent {source : Option String} {sources : List (Option String)} {url : String} (h : Silent source)
      (rest : First sources url) : First (source :: sources) url
  | standard : First [] Endpoint.standardUrl

theorem flagUrl?_some (s : String) :
    flagUrl? (some s) = if (Text.trim s).isEmpty then none else some (Text.trim s) := by
  simp only [flagUrl?, Option.bind_eq_bind, Option.bind_some]

/-- The settings name a registry as a flag does. -/
theorem registry?_eq (s : Settings) : s.registry? = flagUrl? (some s.registryUrl) := by
  rw [flagUrl?_some, Settings.registry?]

theorem flagUrl?_eq_some_iff {flag : Option String} {url : String} : flagUrl? flag = some url ↔ Says flag url := by
  cases flag with
  | none => exact ⟨nofun, fun ⟨_, h, _⟩ => nomatch h⟩
  | some s =>
    rw [flagUrl?_some]
    constructor
    · intro h
      split at h
      · cases h
      · next hne =>
        cases h
        exact ⟨s, rfl, fun hb => hne (String.isEmpty_iff.2 (Text.trim_eq_empty_iff.2 hb)), Text.trimmed_trim s⟩
    · rintro ⟨_, hs, hne, ht⟩
      cases hs
      rw [if_neg fun h => hne (Text.trim_eq_empty_iff.1 (String.isEmpty_iff.1 h)), ht.eq_trim]

theorem flagUrl?_eq_none_iff {flag : Option String} : flagUrl? flag = none ↔ Silent flag := by
  constructor
  · rintro h s rfl
    rw [flagUrl?_some] at h
    split at h
    · next he => exact Text.trim_eq_empty_iff.1 (String.isEmpty_iff.1 he)
    · cases h
  · intro h
    cases hf : flagUrl? flag with
    | none => rfl
    | some url =>
      obtain ⟨s, hs, hne, -⟩ := flagUrl?_eq_some_iff.1 hf
      exact absurd (h s hs) hne

theorem registry?_eq_some_iff {s : Settings} {url : String} :
    s.registry? = some url ↔ Says (some s.registryUrl) url := by
  rw [registry?_eq, flagUrl?_eq_some_iff]

theorem registry?_eq_none_iff {s : Settings} : s.registry? = none ↔ Silent (some s.registryUrl) := by
  rw [registry?_eq, flagUrl?_eq_none_iff]

theorem Says.tidy {source : Option String} {url : String} (h : Says source url) : Tidy url := by
  obtain ⟨_, -, -, ht⟩ := h
  exact ht.tidy

theorem Says.ne_empty {source : Option String} {url : String} (h : Says source url) : url ≠ "" := by
  obtain ⟨s, -, hne, ht⟩ := h
  rw [ht.eq_trim]
  exact fun he => hne (Text.trim_eq_empty_iff.1 he)

theorem First.ne_empty {sources : List (Option String)} {url : String} (h : First sources url) : url ≠ "" := by
  induction h with
  | named h => exact h.ne_empty
  | silent _ _ ih => exact ih
  | standard => decide

theorem First.tidy {sources : List (Option String)} {url : String} (h : First sources url) : Tidy url := by
  induction h with
  | named h => exact h.tidy
  | silent _ _ ih => exact ih
  | standard => decide

/-! ## The registry -/

/-- A recorded registry is any text but the empty one. -/
theorem bind_registryUrl?_eq_some_iff {login : Option Login} {url : String} :
    login.bind Login.registryUrl? = some url ↔ login.map Login.registry = some url ∧ url ≠ "" := by
  cases login with
  | none => exact ⟨nofun, fun ⟨h, _⟩ => nomatch h⟩
  | some l =>
    have hl : Login.registryUrl? l = if l.registry.isEmpty then none else some l.registry := rfl
    rw [Option.bind_some, hl, Option.map_some]
    by_cases he : l.registry = ""
    · rw [if_pos (String.isEmpty_iff.2 he)]
      exact ⟨nofun, fun ⟨h, hne⟩ => absurd ((Option.some.inj h).symm.trans he) hne⟩
    · rw [if_neg fun h => he (String.isEmpty_iff.1 h)]
      exact ⟨fun h => ⟨h, Option.some.inj h ▸ he⟩, And.left⟩

/-- When the flag and the settings are silent, the login decides. -/
theorem registryUrl_of_silent {flag : Option String} {s : Settings} (hf : Silent flag) (hs : Silent (some s.registryUrl))
    (login : Option Login) :
    registryUrl flag s login = (login.bind Login.registryUrl?).getD Endpoint.standardUrl := by
  rw [registryUrl, flagUrl?_eq_none_iff.2 hf, registry?_eq_none_iff.2 hs]
  rfl

/-- What is chosen is named first, or it is a recorded text after silent sources. -/
theorem Chosen.first_or_recorded {flag : Option String} {s : Settings} {login : Option Login} {url : String}
    (h : Chosen flag s (login.bind Login.registryUrl?) url) :
    First [flag, some s.registryUrl, login.map Login.registry] url ∨
      Silent flag ∧ Silent (some s.registryUrl) ∧ login.map Login.registry = some url ∧ url ≠ "" := by
  cases h with
  | flag h => exact Or.inl (.named (flagUrl?_eq_some_iff.1 h))
  | settings hf h => exact Or.inl (.silent (flagUrl?_eq_none_iff.1 hf) (.named (registry?_eq_some_iff.1 h)))
  | recorded hf hs h =>
    exact Or.inr ⟨flagUrl?_eq_none_iff.1 hf, registry?_eq_none_iff.1 hs, bind_registryUrl?_eq_some_iff.1 h⟩
  | standard hf hs h =>
    have hempty : Silent (login.map Login.registry) := by
      intro r hr
      rcases Decidable.em (r = "") with rfl | hne
      · decide
      · cases h.symm.trans (bind_registryUrl?_eq_some_iff.2 ⟨hr, hne⟩)
    exact Or.inl (.silent (flagUrl?_eq_none_iff.1 hf) (.silent (registry?_eq_none_iff.1 hs) (.silent hempty .standard)))

/-- A tidy text that is recorded is named by the login. -/
theorem says_of_tidy {r : String} (h : Tidy r) (hne : r ≠ "") : Says (some r) r :=
  ⟨r, rfl, fun hb => hne (h.eq_empty hb), h.trimmed⟩

/-- **The registry that is named first.** The flag, the settings and the login are asked in this order. A registry comes
out without blanks around it, and is the one named first, or the standard one, except in one case: the flag and the
settings are silent, and the login records a text that begins or ends with a blank. A recorded text counts unless it is
empty, and is taken as it is. -/
theorem registryUrl_first (flag : Option String) (s : Settings) (login : Option Login) :
    let url := registryUrl flag s login
    let recorded := login.map Login.registry
    url ≠ "" ∧ (First [flag, some s.registryUrl, recorded] url ↔ Tidy url) ∧
    (¬Tidy url ↔ Silent flag ∧ Silent (some s.registryUrl) ∧ ∃ r, recorded = some r ∧ ¬Tidy r) ∧
    ∀ r, recorded = some r → r ≠ "" → Silent flag → Silent (some s.registryUrl) → url = r := by
  intro url recorded
  have hchosen : Chosen flag s (login.bind Login.registryUrl?) url := registryUrl_chosen flag s login
  have hrecorded : ∀ r, recorded = some r → r ≠ "" → Silent flag → Silent (some s.registryUrl) → url = r := by
    intro r hr hne hf hs
    have hlogin : login.bind Login.registryUrl? = some r := bind_registryUrl?_eq_some_iff.2 ⟨hr, hne⟩
    exact (registryUrl_of_silent hf hs login).trans (congrArg (·.getD Endpoint.standardUrl) hlogin)
  refine ⟨?notEmpty, ⟨First.tidy, ?tidy⟩, ⟨?untidy, ?blanks⟩, hrecorded⟩
  case notEmpty =>
    rcases hchosen.first_or_recorded with h | ⟨-, -, -, hne⟩
    · exact h.ne_empty
    · exact hne
  case tidy =>
    intro htidy
    rcases hchosen.first_or_recorded with h | ⟨hf, hs, hr, hne⟩
    · exact h
    · have hsays : Says recorded url := by
        rw [show recorded = some url from hr]
        exact says_of_tidy htidy hne
      exact .silent hf (.silent hs (.named hsays))
  case untidy =>
    intro hblank
    rcases hchosen.first_or_recorded with h | ⟨hf, hs, hr, -⟩
    · exact absurd h.tidy hblank
    · exact ⟨hf, hs, url, hr, hblank⟩
  case blanks =>
    rintro ⟨hf, hs, r, hr, hblank⟩
    have hne : r ≠ "" := by
      rintro rfl
      exact hblank ⟨nofun, nofun⟩
    rw [hrecorded r hr hne hf hs]
    exact hblank

/-- A recorded text that is padded is used with its padding, a configured one without. -/
theorem registryUrl_first_padded :
    registryUrl (some " ") ⟨"", "", ""⟩ (some ⟨"t", " http://r"⟩) = " http://r" ∧
      Tidy (registryUrl (some " ") ⟨" http://s\n", "", ""⟩ (some ⟨"t", " http://r"⟩)) := by
  have hsilent : Silent (some " ") := fun s hs => Option.some.inj hs ▸ by decide
  have hempty : Silent (some "") := fun s hs => Option.some.inj hs ▸ by decide
  obtain ⟨-, -, -, hrecorded⟩ := registryUrl_first (some " ") ⟨"", "", ""⟩ (some ⟨"t", " http://r"⟩)
  obtain ⟨-, -, huntidy, -⟩ := registryUrl_first (some " ") ⟨" http://s\n", "", ""⟩ (some ⟨"t", " http://r"⟩)
  have hpadded := hrecorded " http://r" rfl (by decide) hsilent hempty
  refine ⟨hpadded, Classical.byContradiction fun h => ?_⟩
  obtain ⟨-, hsettings, -⟩ := huntidy.1 h
  exact absurd (hsettings _ rfl) (by decide)

/-- A login that records a blank is not silent: the blank is the registry. -/
theorem registryUrl_first_blank :
    let login : Login := ⟨"t", " "⟩
    registryUrl none ⟨"", "", ""⟩ (some login) = " " ∧
      ¬First [none, some "", some login.registry] (registryUrl none ⟨"", "", ""⟩ (some login)) := by
  intro login
  have hurl : registryUrl none ⟨"", "", ""⟩ (some login) = " " := by decide
  refine ⟨hurl, fun h => ?_⟩
  have htidy := h.tidy
  rw [hurl] at htidy
  exact absurd htidy (by decide)

end RegistryPublisher.Target
