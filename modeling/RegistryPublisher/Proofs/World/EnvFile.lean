import RegistryPublisher.Settings.Load

/-!
# Broken files of variables

A line that cannot be read ends the loading of a file, and what the lines before it have set stays.

- `EnvFile.isReadable`: whether a line can be read does not depend on any variable (`line_eq_bad_iff`);
- `EnvFile.assignments`: what the lines before the first unreadable one say, each after those before it; in the
  environment `filled` they are the values of the variables that had none (`filled_get?`);
- `EnvFile.Loadable`: no such variable gets a value with a NUL, which decides between this environment and a crash
  (`loadLines_eq_ok_iff`, `load_eq_ok_iff`, `exists_load_error_iff`);
- `EnvFile.load_broken`: a file with an unreadable line does what the lines before this one do.
-/

namespace RegistryPublisher

namespace Environment

/-- A variable that is set keeps its value. -/
theorem get?_setIfMissing (env : Environment) (name value other : String) :
    (env.setIfMissing name value).get? other = (env.get? other).or (if name = other then some value else none) := by
  unfold setIfMissing isSet
  split
  · next h =>
    by_cases hname : name = other
    · obtain ⟨x, hx⟩ := Option.isSome_iff_exists.1 h
      rw [← hname, hx, Option.some_or]
    · rw [if_neg hname, Option.or_none]
  · next h =>
    rw [get?_set]
    by_cases hname : name = other
    · rw [if_pos hname, if_pos hname, ← hname, Option.not_isSome_iff_eq_none.1 h, Option.none_or]
    · rw [if_neg hname, if_neg hname, Option.or_none]

end Environment

namespace EnvFile

/-! ## Which lines can be read -/

namespace Reading

/-- A reading without its characters: all that decides whether it can go on. -/
def bare (r : Reading) : Reading := { r with output := [] }

variable {r r' : Reading} {lookup lookup' : String → String}

theorem inName_bare (braced : Bool) (name : List Char) (c : Char) :
    (r.inName lookup braced name c).bare = (r.bare.inName lookup' braced name c).bare := by
  unfold inName
  split
  · rfl
  split
  · split <;> rfl
  split
  · rfl
  split <;> rfl

theorem outside_bare (r : Reading) (c : Char) : (r.outside c).bare = (r.bare.outside c).bare := by
  unfold outside
  repeat' split
  all_goals rfl

/-- A step goes on with or without the characters, and its result is the same apart from them. -/
theorem step_bare (r : Reading) (lookup lookup' : String → String) (c : Char) :
    (r.step lookup c).map bare = (r.bare.step lookup' c).map bare := by
  obtain ⟨output, strong, weak, escaped, ended, name⟩ := r
  -- a case for each part of a value that a character can stand in
  cases ended with
  | true => by_cases hc : (c = ' ' || c = '\t') = true <;> simp [step, bare, hc]
  | false =>
  cases escaped with
  | true => cases hc : unescape? c <;> simp [step, bare, push, hc]
  | false =>
  cases strong with
  | true => by_cases hc : isStrongQuote c = true <;> simp [step, bare, push, hc]
  | false =>
  cases name with
  | some p => exact congrArg some (inName_bare p.1 p.2 c)
  | none =>
  by_cases hd : c = '$'
  · simp [step, bare, hd]
  cases weak with
  | true =>
    by_cases hq : isWeakQuote c = true
    · simp [step, bare, hd, hq]
    · by_cases hb : isBackslash c = true <;> simp [step, bare, push, hd, hq, hb]
  | false => simpa [step, bare, hd] using outside_bare ⟨output, false, false, false, false, none⟩ c

theorem isSome_finish (r : Reading) (lookup lookup' : String → String) :
    (r.finish lookup).isSome = (r.bare.finish lookup').isSome := by
  obtain ⟨output, strong, weak, escaped, ended, name⟩ := r
  cases strong with
  | true => rfl
  | false =>
  cases weak with
  | true => rfl
  | false => rcases name with - | ⟨- | -, name⟩ <;> rfl

theorem step_congr (h : r.bare = r'.bare) (lookup lookup' : String → String) (c : Char) :
    (r.step lookup c).map bare = (r'.step lookup' c).map bare := by
  rw [step_bare r lookup lookup, h, ← step_bare r' lookup' lookup]

theorem isSome_finish_congr (h : r.bare = r'.bare) (lookup lookup' : String → String) :
    (r.finish lookup).isSome = (r'.finish lookup').isSome := by
  rw [isSome_finish r lookup lookup, h, ← isSome_finish r' lookup' lookup]

end Reading

/-- Whether a value can be read does not depend on any variable. -/
theorem isSome_readValue {r r' : Reading} (h : r.bare = r'.bare) (lookup lookup' : String → String) (cs : List Char) :
    (readValue lookup r cs).isSome = (readValue lookup' r' cs).isSome := by
  induction cs generalizing r r' with
  | nil => exact Reading.isSome_finish_congr h lookup lookup'
  | cons c cs ih =>
    have hended : r.ended = r'.ended := congrArg (·.ended) h
    rw [readValue, readValue, hended]
    split
    · exact Reading.isSome_finish_congr h lookup lookup'
    · have hstep := Reading.step_congr h lookup lookup' c
      cases hr : r.step lookup c with
      | none =>
        rw [hr, Option.map_none, eq_comm, Option.map_eq_none_iff] at hstep
        rw [hstep]
        rfl
      | some s =>
        rw [hr, Option.map_some, eq_comm, Option.map_eq_some_iff] at hstep
        obtain ⟨s', hs', hbare⟩ := hstep
        rw [hs']
        exact ih hbare.symm

theorem line_eq_bad_iff (lookup lookup' : String → String) (cs : List Char) :
    line lookup cs = .bad ↔ line lookup' cs = .bad := by
  unfold line
  dsimp only
  split
  · exact ⟨nofun, nofun⟩
  split
  · exact ⟨fun _ => rfl, fun _ => rfl⟩
  next name rest _ =>
  split
  · exact ⟨nofun, nofun⟩
  · have hvalue := isSome_readValue (@rfl _ Reading.start.bare) lookup lookup' rest
    cases h : readValue lookup .start rest with
    | none =>
      rw [h, Option.isSome_none, eq_comm, Option.isSome_eq_false_iff, Option.isNone_iff_eq_none] at hvalue
      rw [hvalue]
    | some value =>
      rw [h, Option.isSome_some, eq_comm, Option.isSome_iff_exists] at hvalue
      obtain ⟨value', h'⟩ := hvalue
      rw [h']
      exact ⟨nofun, nofun⟩

/-- Whether a logical line can be read, whatever the variables are. -/
def isReadable : Option (List Char) → Bool
  | none => false
  | some cs => line (fun _ => "") cs != .bad

theorem isReadable_iff {l : Option (List Char)} (lookup : String → String) :
    isReadable l = true ↔ ∃ cs, l = some cs ∧ line lookup cs ≠ .bad := by
  cases l with
  | none => exact ⟨nofun, nofun⟩
  | some cs =>
    simp only [isReadable, bne_iff_ne, ne_eq, Option.some.injEq, exists_eq_left', line_eq_bad_iff _ lookup]

/-! ## What lines say -/

variable {env : Environment} {ls : List (Option (List Char))} {l : Option (List Char)}

/-- What the lines before the first unreadable one say, each in the environment that those before it leave. -/
def assignments (env : Environment) : List (Option (List Char)) → List (String × String)
  | [] => []
  | none :: _ => []
  | some cs :: ls =>
    match line (fun name => (env.get? name).getD "") cs with
    | .bad => []
    | .blank => assignments env ls
    | .entry name value => (name, value) :: assignments (env.setIfMissing name value) ls

/-- The environment after some lines, if variables could have any value. -/
def filled (env : Environment) : List (Option (List Char)) → Environment
  | [] => env
  | none :: _ => env
  | some cs :: ls =>
    match line (fun name => (env.get? name).getD "") cs with
    | .bad => env
    | .blank => filled env ls
    | .entry name value => filled (env.setIfMissing name value) ls

/-- Nothing is loaded from an unreadable line on. -/
theorem loadLines_unreadable (h : isReadable l = false) (env : Environment) (ls : List (Option (List Char))) :
    loadLines env (l :: ls) = .ok env := by
  cases l with
  | none => rfl
  | some cs =>
    rw [isReadable, bne_eq_false_iff_eq, line_eq_bad_iff _ fun name => (env.get? name).getD ""] at h
    rw [loadLines, h]

theorem loadLines_append {before : List (Option (List Char))} (h : ∀ l ∈ before, isReadable l = true)
    (env : Environment) (ls : List (Option (List Char))) :
    loadLines env (before ++ ls) = (loadLines env before).bind fun env => loadLines env ls := by
  induction before generalizing env with
  | nil => rfl
  | cons l before ih =>
    obtain ⟨hl, hbefore⟩ := List.forall_mem_cons.1 h
    obtain ⟨cs, rfl, hline⟩ := (isReadable_iff fun name => (env.get? name).getD "").1 hl
    rw [List.cons_append, loadLines, loadLines]
    cases hc : line (fun name => (env.get? name).getD "") cs with
    | bad => exact absurd hc hline
    | blank => exact ih hbefore env
    | entry name value =>
      dsimp only
      cases assign env name value with
      | error c => rfl
      | ok env' => exact ih hbefore env'

/-- A variable has the value it had, or else that of the first line that sets it. -/
theorem filled_get? (env : Environment) (ls : List (Option (List Char))) (name : String) :
    (filled env ls).get? name = (env.get? name).or ((assignments env ls).lookup name) := by
  induction ls generalizing env with
  | nil => exact (Option.or_none).symm
  | cons l ls ih =>
    cases l with
    | none => exact (Option.or_none).symm
    | some cs =>
      rw [filled, assignments]
      cases line (fun name => (env.get? name).getD "") cs with
      | bad => exact (Option.or_none).symm
      | blank => exact ih env
      | entry n value =>
        dsimp only
        rw [ih, Environment.get?_setIfMissing, Option.or_assoc, List.lookup_cons]
        by_cases h : n = name
        · rw [if_pos h, h, beq_self_eq_true, Option.some_or]
        · rw [if_neg h, Option.none_or, beq_eq_false_iff_ne.2 (Ne.symm h)]

/-- Lines change nothing when they only set variables that are set. -/
theorem filled_eq_self_iff (env : Environment) (ls : List (Option (List Char))) :
    filled env ls = env ↔ ∀ v ∈ assignments env ls, env.isSet v.1 = true := by
  constructor
  · intro h v hv
    have hget := filled_get? env ls v.1
    rw [h] at hget
    cases he : env.get? v.1 with
    | some x => exact congrArg Option.isSome he
    | none =>
      rw [he, Option.none_or, eq_comm, List.lookup_eq_none_iff] at hget
      exact absurd rfl (bne_iff_ne.1 (hget v hv))
  · intro h
    induction ls with
    | nil => rfl
    | cons l ls ih =>
      cases l with
      | none => rfl
      | some cs =>
        rw [assignments] at h
        rw [filled]
        cases hc : line (fun name => (env.get? name).getD "") cs with
        | bad => rfl
        | blank => rw [hc] at h; exact ih h
        | entry name value =>
          rw [hc] at h
          obtain ⟨hname, hrest⟩ := List.forall_mem_cons.1 h
          have hsame : env.setIfMissing name value = env := if_pos hname
          rw [hsame] at hrest
          dsimp only
          rw [hsame]
          exact ih hrest

/-! ## Loading lines -/

/-- No variable that is not set would get a value with a NUL. -/
def Loadable (env : Environment) (ls : List (Option (List Char))) : Prop :=
  ∀ name value, env.get? name = none → (assignments env ls).lookup name = some value → Char.ofNat 0 ∉ value.toList

theorem Loadable.of_forall (h : ∀ v ∈ assignments env ls, Char.ofNat 0 ∉ v.2.toList) : Loadable env ls := by
  intro name value _ hlookup
  obtain ⟨before, after, hsplit, -⟩ := List.lookup_eq_some_iff.1 hlookup
  exact h (name, value) (hsplit ▸ List.mem_append_right _ List.mem_cons_self)

theorem isSettable_iff {value : String} : isSettable value = true ↔ Char.ofNat 0 ∉ value.toList := by simp [isSettable]

section Entry

variable {cs : List Char} {name value : String} (h : line (fun name => (env.get? name).getD "") cs = .entry name value)
include h

theorem assignments_entry :
    assignments env (some cs :: ls) = (name, value) :: assignments (env.setIfMissing name value) ls := by
  rw [assignments, h]

theorem loadLines_entry : loadLines env (some cs :: ls) =
    if (env.isSet name || isSettable value) = true then loadLines (env.setIfMissing name value) ls
    else .error ⟨name, value⟩ := by
  rw [loadLines, h]
  unfold assign
  dsimp only
  by_cases hset : (env.isSet name || isSettable value) = true
  · rw [if_pos hset, if_pos hset]
  · rw [if_neg hset, if_neg hset]

/-- An entry comes before all others for the same variable. -/
theorem loadable_entry_iff : Loadable env (some cs :: ls) ↔
    (env.isSet name || isSettable value) = true ∧ Loadable (env.setIfMissing name value) ls := by
  rw [Bool.or_eq_true, isSettable_iff]
  unfold Loadable
  rw [assignments_entry h]
  constructor
  · intro hall
    refine ⟨?_, fun n x hn hlookup => ?_⟩
    · by_cases hset : env.isSet name = true
      · exact Or.inl hset
      · refine Or.inr (hall name value (Option.not_isSome_iff_eq_none.1 hset) ?_)
        rw [List.lookup_cons, beq_self_eq_true]
    · rw [Environment.get?_setIfMissing, Option.or_eq_none_iff] at hn
      have hne : n ≠ name := by
        rintro rfl
        simp at hn
      refine hall n x hn.1 ?_
      rw [List.lookup_cons, beq_eq_false_iff_ne.2 hne]
      exact hlookup
  · rintro ⟨hfirst, hrest⟩ n x hn hlookup
    rw [List.lookup_cons] at hlookup
    by_cases hname : n = name
    · rw [beq_iff_eq.2 hname] at hlookup
      obtain rfl := Option.some.inj hlookup
      subst hname
      exact hfirst.resolve_left (by rw [Environment.isSet, hn]; nofun)
    · rw [beq_eq_false_iff_ne.2 hname] at hlookup
      refine hrest n x ?_ hlookup
      rw [Environment.get?_setIfMissing, hn, if_neg (Ne.symm hname), Option.none_or]

end Entry

/-- Lines fill the environment, or there is a value with a NUL. -/
theorem loadLines_eq_ok_iff {env' : Environment} :
    loadLines env ls = .ok env' ↔ Loadable env ls ∧ env' = filled env ls := by
  induction ls generalizing env with
  | nil => exact ⟨fun h => ⟨.of_forall nofun, (Except.ok.inj h).symm⟩, fun h => congrArg Except.ok h.2.symm⟩
  | cons l ls ih =>
    cases l with
    | none => exact ⟨fun h => ⟨.of_forall nofun, (Except.ok.inj h).symm⟩, fun h => congrArg Except.ok h.2.symm⟩
    | some cs =>
      cases hc : line (fun name => (env.get? name).getD "") cs with
      | bad =>
        have hnothing : assignments env (some cs :: ls) = [] := by rw [assignments, hc]
        have hloadable : Loadable env (some cs :: ls) := .of_forall (by rw [hnothing]; nofun)
        rw [loadLines, filled, hc]
        exact ⟨fun h => ⟨hloadable, (Except.ok.inj h).symm⟩, fun h => congrArg Except.ok h.2.symm⟩
      | blank =>
        have hsame : Loadable env (some cs :: ls) ↔ Loadable env ls := by
          unfold Loadable
          rw [assignments, hc]
        rw [loadLines, filled, hc, hsame]
        exact ih
      | entry name value =>
        rw [loadLines_entry hc, loadable_entry_iff hc, filled, hc]
        split
        · next hset =>
          rw [and_iff_right hset]
          exact ih
        · next hset => exact ⟨nofun, fun h => absurd h.1.1 hset⟩

/-- A crash is about a variable that is not set, and a value with a NUL that the first line about it has. -/
theorem crash_of_loadLines {c : Crash} (h : loadLines env ls = .error c) : env.get? c.name = none ∧
    (assignments env ls).lookup c.name = some c.value ∧ Char.ofNat 0 ∈ c.value.toList := by
  induction ls generalizing env with
  | nil => cases h
  | cons l ls ih =>
    cases l with
    | none => cases h
    | some cs =>
      cases hc : line (fun name => (env.get? name).getD "") cs with
      | bad => rw [loadLines, hc] at h; cases h
      | blank =>
        rw [loadLines, hc] at h
        rw [assignments, hc]
        exact ih h
      | entry name value =>
        rw [loadLines_entry hc] at h
        rw [assignments_entry hc]
        split at h
        · obtain ⟨hmissing, hlookup, hnul⟩ := ih h
          rw [Environment.get?_setIfMissing, Option.or_eq_none_iff] at hmissing
          have hne : c.name ≠ name := by
            intro hname
            rw [if_pos hname.symm] at hmissing
            cases hmissing.2
          rw [List.lookup_cons, beq_eq_false_iff_ne.2 hne]
          exact ⟨hmissing.1, hlookup, hnul⟩
        · next hset =>
          cases h
          rw [Bool.or_eq_true, isSettable_iff, not_or, Environment.isSet, Option.not_isSome_iff_eq_none,
            Decidable.not_not] at hset
          rw [List.lookup_cons, beq_self_eq_true]
          exact ⟨hset.1, rfl, hset.2⟩

theorem exists_crash_iff : (∃ c, loadLines env ls = .error c) ↔ ¬Loadable env ls := by
  constructor
  · rintro ⟨c, h⟩ hloadable
    cases h.symm.trans (loadLines_eq_ok_iff.2 ⟨hloadable, rfl⟩)
  · intro h
    cases hload : loadLines env ls with
    | error c => exact ⟨c, rfl⟩
    | ok env' => exact absurd (loadLines_eq_ok_iff.1 hload).1 h

/-! ## Loading the file -/

/-- The lines of the nearest file; none when there is no file that can be read. -/
def nearestLines (w : World) : List (Option (List Char)) :=
  match path? w with
  | none => []
  | some path =>
    match w.read path with
    | .error _ => []
    | .ok content => lines content

theorem nearestLines_eq {w : World} {path : String} {content : Bytes} (hpath : path? w = some path)
    (hread : w.read path = .ok content) : nearestLines w = lines content := by
  rw [nearestLines, hpath]
  dsimp only
  rw [hread]

/-- The world with its environment filled by the file. -/
def filledWorld (w : World) : World := { w with environment := filled w.environment (nearestLines w) }

/-- A world without a file is loaded as if its file had no lines. -/
theorem load_eq (w : World) :
    load w = (loadLines w.environment (nearestLines w)).map fun env => { w with environment := env } := by
  unfold load nearestLines
  cases path? w with
  | none => rfl
  | some path =>
    dsimp only
    cases w.read path with
    | error e => rfl
    | ok content => rfl

theorem load_eq_ok_iff {w later : World} :
    load w = .ok later ↔ Loadable w.environment (nearestLines w) ∧ later = filledWorld w := by
  rw [load_eq]
  cases h : loadLines w.environment (nearestLines w) with
  | error c => exact ⟨nofun, fun hall => absurd hall.1 (exists_crash_iff.1 ⟨c, h⟩)⟩
  | ok env =>
    obtain ⟨hloadable, rfl⟩ := loadLines_eq_ok_iff.1 h
    rw [and_iff_right hloadable]
    exact ⟨fun h => (Except.ok.inj h).symm, fun h => congrArg Except.ok h.symm⟩

theorem exists_load_error_iff {w : World} :
    (∃ c, load w = .error c) ↔ ¬Loadable w.environment (nearestLines w) := by
  rw [load_eq, ← exists_crash_iff]
  cases loadLines w.environment (nearestLines w) with
  | error c => exact ⟨fun _ => ⟨c, rfl⟩, fun _ => ⟨c, rfl⟩⟩
  | ok env => exact ⟨nofun, nofun⟩

/-! ## Broken files -/

/-- **A broken file is loaded up to the line that is broken.** When a file of variables has a line that cannot be read,
the lines before it are loaded as if there were no others, and the settings are those of the environment that this
leaves: a variable has the value that it had, or else that of the first of these lines that sets it. So the file has
no effect exactly when these lines only set variables that are set already. If a value that has to be set holds a NUL,
there are no settings at all. -/
theorem load_broken {w : World} {path : String} {content : Bytes} {before after : List (Option (List Char))}
    {broken : Option (List Char)} (hpath : path? w = some path) (hread : w.read path = .ok content)
    (hlines : lines content = before ++ broken :: after) (hbefore : ∀ l ∈ before, isReadable l = true)
    (hbroken : isReadable broken = false) :
    let w' := { w with environment := filled w.environment before }
    (Loadable w.environment before → Settings.loadWithEnvFile w = .ok (Settings.load w', w')) ∧
    (¬Loadable w.environment before → ∃ c, Settings.loadWithEnvFile w = .error c) ∧
    (∀ name, w'.environment.get? name =
      (w.environment.get? name).or ((assignments w.environment before).lookup name)) ∧
    (w'.environment = w.environment ↔ ∀ v ∈ assignments w.environment before, w.environment.isSet v.1 = true) := by
  intro w'
  have hload : load w = (loadLines w.environment before).map fun env => { w with environment := env } := by
    rw [load_eq, nearestLines_eq hpath hread, hlines, loadLines_append hbefore]
    cases loadLines w.environment before with
    | error c => rfl
    | ok env => exact congrArg (Except.map _) (loadLines_unreadable hbroken env after)
  refine ⟨fun h => ?_, fun h => ?_, filled_get? w.environment before, filled_eq_self_iff w.environment before⟩
  · rw [Settings.loadWithEnvFile, hload, loadLines_eq_ok_iff.2 ⟨h, rfl⟩]
    rfl
  · obtain ⟨c, hc⟩ := exists_crash_iff.2 h
    rw [Settings.loadWithEnvFile, hload, hc]
    exact ⟨c, rfl⟩

/-- A file whose second line is broken. -/
def brokenText : Bytes := Utf8.encode "MCP_PUBLISHER_AUTH__TOKEN=t\n@\n"

/-- A world with nothing but this file. -/
def brokenWorld : World where
  read path := if path = "/.env" then .ok brokenText else .error .notFound
  environment := []
  directory := "/"
  accountHome := some "/"

theorem path?_brokenWorld : path? brokenWorld = some "/.env" := by decide +kernel

theorem lines_brokenText : lines brokenText = [some "MCP_PUBLISHER_AUTH__TOKEN=t".toList, some ['@']] := by
  decide +kernel

theorem loadable_brokenWorld : Loadable brokenWorld.environment [some "MCP_PUBLISHER_AUTH__TOKEN=t".toList] :=
  .of_forall (by decide +kernel)

/-- The line before the broken one sets the token. -/
theorem load_broken_token :
    path? brokenWorld = some "/.env" ∧ brokenWorld.read "/.env" = .ok brokenText ∧
    lines brokenText = [some "MCP_PUBLISHER_AUTH__TOKEN=t".toList, some ['@']] ∧
    ∃ settings later, Settings.loadWithEnvFile brokenWorld = .ok (settings, later) ∧
      later.environment.get? "MCP_PUBLISHER_AUTH__TOKEN" = some "t" := by
  have hreadable : ∀ l ∈ [some "MCP_PUBLISHER_AUTH__TOKEN=t".toList], isReadable l = true := by decide +kernel
  have hbroken : isReadable (some ['@']) = false := by decide +kernel
  obtain ⟨hload, -, hget, -⟩ := load_broken path?_brokenWorld rfl lines_brokenText hreadable hbroken
  refine ⟨path?_brokenWorld, rfl, lines_brokenText, _, _, hload loadable_brokenWorld, ?_⟩
  rw [hget]
  decide +kernel

/-- A broken file does have an effect, on the environment and on the settings. -/
theorem load_broken_effect :
    (∃ l ∈ lines brokenText, isReadable l = false) ∧ path? brokenWorld = some "/.env" ∧
    brokenWorld.read "/.env" = .ok brokenText ∧
    ∃ settings later, Settings.loadWithEnvFile brokenWorld = .ok (settings, later) ∧
      later.environment ≠ brokenWorld.environment ∧ settings ≠ Settings.load brokenWorld := by
  have hload : load brokenWorld = .ok (filledWorld brokenWorld) :=
    load_eq_ok_iff.2 ⟨.of_forall (by decide +kernel), rfl⟩
  refine ⟨by decide +kernel, path?_brokenWorld, rfl, Settings.load (filledWorld brokenWorld), filledWorld brokenWorld,
    by rw [Settings.loadWithEnvFile, hload]; rfl, by decide +kernel, fun h => ?_⟩
  have htoken := congrArg (fun x => x.toOption.map Settings.token) h
  exact absurd htoken (by decide +kernel)

end EnvFile

end RegistryPublisher
