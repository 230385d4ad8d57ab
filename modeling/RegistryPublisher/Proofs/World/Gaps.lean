import RegistryPublisher.Proofs.World.EnvFile

/-!
# A file of variables fills gaps

- `EnvFile.filled_eq_append`: lines put new variables behind those that are set, which stay as they are;
- `EnvFile.assignments_names`: which variables the lines of a file set does not depend on the environment, although their
  values do;
- `EnvFile.filled_filled`: so a file that is loaded again changes nothing (`load_load`).
-/

namespace RegistryPublisher

namespace Environment

variable {env : Environment} {name value : String}

/-- A new variable comes last. -/
theorem set_of_get?_eq_none (h : env.get? name = none) : env.set name value = env ++ [(name, value)] := by
  induction env with
  | nil => rfl
  | cons v env ih =>
    obtain ⟨n, x⟩ := v
    rw [get?, List.lookup_cons] at h
    by_cases hn : name = n
    · rw [beq_iff_eq.2 hn] at h
      cases h
    · rw [beq_eq_false_iff_ne.2 hn] at h
      rw [set, if_neg (Ne.symm hn), ih h, List.cons_append]

end Environment

namespace EnvFile

/-! ## What is added -/

/-- Variables that are set stay where they are, and new ones come after them. -/
theorem filled_eq_append (env : Environment) (ls : List (Option (List Char))) :
    ∃ added : Environment, filled env ls = env ++ added ∧ ∀ v ∈ added, env.get? v.1 = none := by
  induction ls generalizing env with
  | nil => exact ⟨[], (List.append_nil env).symm, nofun⟩
  | cons l ls ih =>
    have hnothing : ∃ added : Environment, env = env ++ added ∧ ∀ v ∈ added, env.get? v.1 = none :=
      ⟨[], (List.append_nil env).symm, nofun⟩
    cases l with
    | none => exact hnothing
    | some cs =>
      rw [filled]
      cases line (fun name => (env.get? name).getD "") cs with
      | bad => exact hnothing
      | blank => exact ih env
      | entry name value =>
        dsimp only
        unfold Environment.setIfMissing Environment.isSet
        split
        · exact ih env
        · next hmissing =>
          rw [Option.not_isSome_iff_eq_none] at hmissing
          obtain ⟨added, hload, hadded⟩ := ih (env.set name value)
          refine ⟨(name, value) :: added, ?_, List.forall_mem_cons.2 ⟨hmissing, fun v hv => ?_⟩⟩
          · rw [hload, Environment.set_of_get?_eq_none hmissing, List.append_assoc, List.singleton_append]
          · have hnew := hadded v hv
            rw [Environment.get?_set] at hnew
            split at hnew
            · cases hnew
            · exact hnew

/-! ## What lines are about -/

/-- The variable that a line sets. -/
def Line.name? : Line → Option String
  | entry name _ => some name
  | _ => none

/-- The variables do not decide which variable a line sets. -/
theorem line_name? (lookup lookup' : String → String) (cs : List Char) :
    (line lookup cs).name? = (line lookup' cs).name? := by
  have hbad := line_eq_bad_iff lookup lookup' cs
  unfold line at hbad ⊢
  dsimp only at hbad ⊢
  split
  · rfl
  next hover =>
  rw [if_neg hover, if_neg hover] at hbad
  split
  · rfl
  next name rest hsplit =>
  split
  · rfl
  next hrest =>
  simp only [hsplit, if_neg hrest] at hbad
  cases hvalue : readValue lookup .start rest with
  | none =>
    rw [hvalue] at hbad
    rw [hbad.1 rfl]
  | some value =>
    cases hvalue' : readValue lookup' .start rest with
    | none =>
      rw [hvalue'] at hbad
      rw [hvalue] at hbad
      exact nomatch hbad.2 rfl
    | some value' => rfl

/-- The environment does not decide which variables some lines set. -/
theorem assignments_names (env env' : Environment) (ls : List (Option (List Char))) :
    (assignments env ls).map Prod.fst = (assignments env' ls).map Prod.fst := by
  induction ls generalizing env env' with
  | nil => rfl
  | cons l ls ih =>
    cases l with
    | none => rfl
    | some cs =>
      have hname := line_name? (fun name => (env.get? name).getD "") (fun name => (env'.get? name).getD "") cs
      have hbad := line_eq_bad_iff (fun name => (env.get? name).getD "") (fun name => (env'.get? name).getD "") cs
      rw [assignments, assignments]
      cases hl : line (fun name => (env.get? name).getD "") cs with
      | bad => rw [hbad.1 hl]
      | blank =>
        rw [hl] at hname hbad
        cases hl' : line (fun name => (env'.get? name).getD "") cs with
        | bad => cases hbad.2 hl'
        | blank => exact ih env env'
        | entry n x => rw [hl'] at hname; cases hname
      | entry n x =>
        rw [hl] at hname hbad
        cases hl' : line (fun name => (env'.get? name).getD "") cs with
        | bad => cases hbad.2 hl'
        | blank => rw [hl'] at hname; cases hname
        | entry n' x' =>
          rw [hl'] at hname
          cases hname
          exact congrArg (n :: ·) (ih _ _)

/-! ## Loading again -/

/-- Every variable that the lines are about is set after them. -/
theorem isSet_filled {env : Environment} {ls : List (Option (List Char))} {name : String}
    (h : name ∈ (assignments env ls).map Prod.fst) : (filled env ls).isSet name = true := by
  rw [Environment.isSet, filled_get?, Option.isSome_or, Bool.or_eq_true]
  right
  rw [Option.isSome_iff_ne_none, Ne, List.lookup_eq_none_iff]
  intro hnone
  obtain ⟨v, hv, rfl⟩ := List.mem_map.1 h
  exact absurd (hnone v hv) (by simp)

theorem isSet_filled_again (env : Environment) (ls : List (Option (List Char))) :
    ∀ v ∈ assignments (filled env ls) ls, (filled env ls).isSet v.1 = true := by
  intro v hv
  refine isSet_filled ?_
  rw [assignments_names env (filled env ls)]
  exact List.mem_map_of_mem hv

/-- The same lines change nothing when they are loaded again. -/
theorem filled_filled (env : Environment) (ls : List (Option (List Char))) :
    filled (filled env ls) ls = filled env ls := (filled_eq_self_iff _ ls).2 (isSet_filled_again env ls)

/-- Lines that are loaded again set nothing, so that their values do not matter. -/
theorem loadable_filled (env : Environment) (ls : List (Option (List Char))) : Loadable (filled env ls) ls := by
  intro name value hmissing hlookup
  obtain ⟨before, after, hsplit, -⟩ := List.lookup_eq_some_iff.1 hlookup
  have hset := isSet_filled_again env ls (name, value) (hsplit ▸ List.mem_append_right _ List.mem_cons_self)
  rw [Environment.isSet, hmissing] at hset
  cases hset

/-- Loading the file does nothing but add variables that are not set. -/
theorem filledWorld_eq_append (w : World) : ∃ added : Environment,
    filledWorld w = { w with environment := w.environment ++ added } ∧ ∀ v ∈ added, w.environment.get? v.1 = none := by
  obtain ⟨added, hfilled, hadded⟩ := filled_eq_append w.environment (nearestLines w)
  exact ⟨added, by rw [filledWorld, hfilled], hadded⟩

theorem search?_withEnvironment (w : World) (env : Environment) (ds : List String) :
    search? { w with environment := env } ds = search? w ds := by
  induction ds with
  | nil => rfl
  | cons d ds ih => rw [search?, search?, ih]

/-- Neither where the file is nor what it holds depends on the environment. -/
theorem nearestLines_withEnvironment (w : World) (env : Environment) :
    nearestLines { w with environment := env } = nearestLines w := by
  rw [nearestLines, nearestLines, path?, path?, search?_withEnvironment]

/-- A file that is loaded again changes nothing. -/
theorem load_load {w later : World} (h : load w = .ok later) : load later = .ok later := by
  obtain ⟨-, rfl⟩ := load_eq_ok_iff.1 h
  refine load_eq_ok_iff.2 ?_
  simp only [filledWorld, nearestLines_withEnvironment, filled_filled, and_true]
  exact loadable_filled w.environment (nearestLines w)

end EnvFile

end RegistryPublisher
