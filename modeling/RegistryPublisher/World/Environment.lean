/-!
# Environment variables

- `Environment.get?`, `set` and `unset` treat the environment as a map from names to values (`get?_set`, `get?_unset`);
- `Environment.setIfMissing` leaves a variable alone that is set already, even to the empty string.
-/

namespace RegistryPublisher

/-- The variables, each name once. -/
abbrev Environment := List (String × String)

namespace Environment

/-- The value of a variable. -/
def get? (env : Environment) (name : String) : Option String := env.lookup name

/-- Whether a variable is set. -/
def isSet (env : Environment) (name : String) : Bool := (env.get? name).isSome

/-- Removes a variable. -/
def unset (env : Environment) (name : String) : Environment := env.filter fun v => v.1 != name

/-- Sets a variable, in the place of an earlier value if there is one. -/
def set : Environment → String → String → Environment
  | [], name, value => [(name, value)]
  | (n, x) :: env, name, value => if n = name then (name, value) :: env else (n, x) :: set env name value

/-- Sets a variable unless it is set. -/
def setIfMissing (env : Environment) (name value : String) : Environment :=
  if env.isSet name then env else env.set name value

/-! ## Laws -/

theorem get?_unset (env : Environment) (name other : String) :
    (env.unset name).get? other = if name = other then none else env.get? other := by
  induction env with
  | nil => simp [unset, get?]
  | cons v env ih =>
    obtain ⟨n, x⟩ := v
    simp only [unset, get?] at ih
    by_cases h : n = name
    · subst h
      by_cases ho : n = other
      · subst ho; simpa [unset, get?, List.filter_cons] using ih
      · have hb : (other == n) = false := by simp [Ne.symm ho]
        simp [unset, get?, List.lookup_cons, hb, ih, ho]
    · by_cases ho : other = n
      · subst ho; simp [unset, get?, h, Ne.symm h]
      · have hb : (other == n) = false := by simp [ho]
        simp [unset, get?, List.lookup_cons, h, hb, ih]

theorem get?_set (env : Environment) (name value other : String) :
    (env.set name value).get? other = if name = other then some value else env.get? other := by
  induction env with
  | nil =>
    by_cases h : name = other
    · simp [set, get?, h]
    · have hb : (other == name) = false := by simp [Ne.symm h]
      simp [set, get?, List.lookup_cons, hb, h]
  | cons v env ih =>
    obtain ⟨n, x⟩ := v
    simp only [get?] at ih
    by_cases hn : n = name
    · subst hn
      by_cases h : n = other
      · simp [set, get?, h]
      · have hb : (other == n) = false := by simp [Ne.symm h]
        simp [set, get?, List.lookup_cons, hb, h]
    · by_cases ho : other = n
      · subst ho; simp [set, get?, hn, Ne.symm hn]
      · have hb : (other == n) = false := by simp [ho]
        simp [set, get?, List.lookup_cons, hn, hb, ih]

end Environment

end RegistryPublisher
