import RegistryPublisher.Program
import RegistryPublisher.Proofs.Settings.Overriding
import RegistryPublisher.Proofs.World.Gaps

/-!
# Sessions

What one run leaves to the next one in the same process: the variables that it has set from a file.

- `Settings.loadWithEnvFile_load`: settings that are loaded again are the same, and set no further variables;
- `Program.run_again`: so a run that is repeated does the same;
- `Settings.loadWithEnvFile_settles`: what loading a file of variables does, and what it leaves as it was.
-/

namespace RegistryPublisher

namespace Settings

theorem loadWithEnvFile_eq_ok_iff {w later : World} {settings : Except LoadFailure Settings} :
    loadWithEnvFile w = .ok (settings, later) ↔ EnvFile.load w = .ok later ∧ settings = load later := by
  rw [loadWithEnvFile]
  cases EnvFile.load w with
  | error c => simp [Except.map]
  | ok later' =>
    constructor
    · intro h
      cases h
      exact ⟨rfl, rfl⟩
    · rintro ⟨h, rfl⟩
      cases h
      rfl

theorem loadWithEnvFile_eq_error_iff {w : World} {c : EnvFile.Crash} :
    loadWithEnvFile w = .error c ↔ EnvFile.load w = .error c := by
  rw [loadWithEnvFile]
  cases EnvFile.load w with
  | error c' => simp [Except.map]
  | ok later => simp [Except.map]

/-- After the file of variables was loaded, loading it again gives the same. -/
theorem loadWithEnvFile_load {w later : World} (h : EnvFile.load w = .ok later) :
    loadWithEnvFile later = loadWithEnvFile w := by rw [loadWithEnvFile, loadWithEnvFile, EnvFile.load_load h, h]

end Settings

namespace EnvFile

/-- A variable that is set keeps its value. -/
theorem get?_filledWorld {w : World} {name value : String} (h : w.environment.get? name = some value) :
    (filledWorld w).environment.get? name = some value := by
  obtain ⟨added, hload, -⟩ := filledWorld_eq_append w
  rw [hload, Environment.get?, List.lookup_append]
  exact Option.or_of_isSome (Option.isSome_of_eq_some h) ▸ h

/-- Without a file that can be read, nothing happens. -/
theorem filledWorld_eq_self {w : World}
    (h : ∀ path content, path? w = some path → w.read path ≠ .ok content) : filledWorld w = w := by
  have hlines : nearestLines w = [] := by
    unfold nearestLines
    split
    · rfl
    next path hpath =>
    split
    · rfl
    · next content hread => exact absurd hread (h path content hpath)
  rw [filledWorld, hlines, filled]

/-- A crash is about a variable that is not set, and a value with a NUL. -/
theorem crash_of_load {w : World} {c : Crash} (h : load w = .error c) : w.environment.get? c.name = none ∧
    (assignments w.environment (nearestLines w)).lookup c.name = some c.value ∧ Char.ofNat 0 ∈ c.value.toList := by
  rw [load_eq] at h
  cases hl : loadLines w.environment (nearestLines w) with
  | error c' =>
    rw [hl] at h
    cases h
    exact crash_of_loadLines hl
  | ok env => rw [hl] at h; cases h

end EnvFile

-- from here on it does not matter how files are read
attribute [local irreducible] EnvFile.load Settings.load

namespace Program

variable {net : Network} {args : List String}

theorem run_load {w later : World} (h : EnvFile.load w = .ok later) {i : Invocation} (hi : Arguments.parse args = .ok i) :
    run later net args = run w net args := by
  have hw : Settings.loadWithEnvFile w = .ok (Settings.load later, later) :=
    Settings.loadWithEnvFile_eq_ok_iff.2 ⟨h, rfl⟩
  simp only [run, hi, Settings.loadWithEnvFile_load h, hw]
  cases Settings.load later with
  | error e => rfl
  | ok s => rfl

/-- A command leaves the world that loading the file of variables leaves, if the file can be loaded. -/
theorem run_world (w : World) {i : Invocation} (hi : Arguments.parse args = .ok i) :
    (run w net args).2 = w ∨ ∃ later, EnvFile.load w = .ok later ∧ (run w net args).2 = later := by
  simp only [run, hi, Settings.loadWithEnvFile]
  cases EnvFile.load w with
  | error c => exact Or.inl rfl
  | ok later =>
    refine Or.inr ⟨later, rfl, ?_⟩
    simp only [Except.map]
    cases Settings.load later with
    | error e => rfl
    | ok s => rfl

/-- A run that is repeated does the same. -/
theorem run_again (w : World) (net : Network) (args : List String) :
    run (run w net args).2 net args = run w net args := by
  cases hi : Arguments.parse args with
  | error halt =>
    have hsame : (run w net args).2 = w := by simp only [run, hi]
    rw [hsame]
  | ok i =>
    rcases @run_world net args w i hi with hw | ⟨later, hload, hw⟩
    · rw [hw]
    · rw [hw]
      exact run_load hload hi

end Program

namespace Settings

open Variables (KeepsTable Says)

/-- **A file of variables fills gaps.** Loading settings adds variables that were not set, and does nothing else to the
world: a variable that is set keeps its value, and any other one has that of the first line that sets it, of those before
the first unreadable one; the file is the nearest one, and if that cannot be read there is none. The settings are those
of the world that this leaves. Loading them again, with the file or without it, gives the same and changes nothing, so a
run of the program that is repeated has the same result. Whatever stands in the other files, a setting that a variable
names has its text from a variable, this one or a later one, unless a later one names the whole table of the setting and
holds no table. All this is so unless a variable that is not set would get a value with a NUL, which is a crash. -/
theorem loadWithEnvFile_settles (w : World) :
    ((∃ c, loadWithEnvFile w = .error c) ↔ ¬EnvFile.Loadable w.environment (EnvFile.nearestLines w)) ∧
    (∀ c, loadWithEnvFile w = .error c → w.environment.get? c.name = none ∧
      (EnvFile.assignments w.environment (EnvFile.nearestLines w)).lookup c.name = some c.value ∧
      Char.ofNat 0 ∈ c.value.toList) ∧
    (∀ net args, Program.run (Program.run w net args).2 net args = Program.run w net args) ∧
    ∀ settings later, loadWithEnvFile w = .ok (settings, later) →
      (∃ added : Environment, later = { w with environment := w.environment ++ added } ∧
        ∀ v ∈ added, w.environment.get? v.1 = none) ∧
      (∀ name value, w.environment.get? name = some value → later.environment.get? name = some value) ∧
      (∀ path content, EnvFile.path? w = some path → w.read path = .ok content → ∀ name,
        later.environment.get? name =
          (w.environment.get? name).or ((EnvFile.assignments w.environment (EnvFile.lines content)).lookup name)) ∧
      ((∀ path content, EnvFile.path? w = some path → w.read path ≠ .ok content) → later = w) ∧
      settings = load later ∧
      loadWithEnvFile later = .ok (settings, later) ∧
      ∀ (k : Setting) (before after : Environment) (v : String × String), later.environment = before ++ v :: after →
        Variables.path? v.1 = some k.path → (∀ u ∈ after, KeepsTable k u) →
        ∀ read stat s, load { later with read := read, stat := stat } = .ok s → ∃ u ∈ v :: after, Says u k (s.get k) := by
  have hcrash : (∃ c, loadWithEnvFile w = .error c) ↔ ∃ c, EnvFile.load w = .error c :=
    exists_congr fun c => loadWithEnvFile_eq_error_iff
  refine ⟨hcrash.trans EnvFile.exists_load_error_iff,
    fun c h => EnvFile.crash_of_load (loadWithEnvFile_eq_error_iff.1 h), Program.run_again w, ?_⟩
  intro settings later h
  obtain ⟨hload, rfl⟩ := loadWithEnvFile_eq_ok_iff.1 h
  have hagain : loadWithEnvFile later = .ok (load later, later) := (loadWithEnvFile_load hload).trans h
  obtain ⟨-, rfl⟩ := EnvFile.load_eq_ok_iff.1 hload
  refine ⟨EnvFile.filledWorld_eq_append w, fun name value => EnvFile.get?_filledWorld,
    fun path content hpath hread name => ?_, EnvFile.filledWorld_eq_self, rfl, hagain, ?_⟩
  · rw [← EnvFile.nearestLines_eq hpath hread]
    exact EnvFile.filled_get? w.environment (EnvFile.nearestLines w) name
  · intro k before after v henv hv hafter read stat s hs
    exact @load_of_variable k { EnvFile.filledWorld w with read := read, stat := stat } before after v henv hv hafter s hs

/-- A world whose project has a token, with a file of variables. -/
def projectWorld (lines : String) : World where
  read path :=
    if path = "/.env" then .ok (Utf8.encode lines)
    else if path = ".mcp-publisher.toml" ∨ path = "/.mcp-publisher.toml" then .ok (Utf8.encode "auth.token = \"x\"\n")
    else .error .notFound
  environment := []
  directory := "/"
  accountHome := some "/"

/-- The file of variables has a token of its own. -/
def tokenLinesWorld : World := projectWorld "MCP_PUBLISHER_AUTH__TOKEN=t\n"

/-- A later line is about everything that a token is part of. -/
def tableLinesWorld : World :=
  projectWorld "MCP_PUBLISHER_AUTH__TOKEN=t\nMCP_PUBLISHER_AUTH=5\nMCP_PUBLISHER_AUTH__TOKEN_FILE=f\n"

/-- A token in the file of variables is used, whatever the project has. -/
theorem loadWithEnvFile_settles_token :
    ∃ s later, loadWithEnvFile tokenLinesWorld = .ok (.ok s, later) ∧ s.token = "t" := by
  have hvalue : Variables.value "t" = .string "t" := Value.text?_eq_some.1 (by decide +kernel)
  have hload : (loadWithEnvFile tokenLinesWorld).toOption.any (fun x => x.1.toOption.isSome) = true := by decide +kernel
  have henv : (loadWithEnvFile tokenLinesWorld).toOption.map (fun x => x.2.environment) = some [(tokenName, "t")] := by
    decide +kernel
  obtain ⟨-, -, -, hmain⟩ := loadWithEnvFile_settles tokenLinesWorld
  -- what was loaded need not be computed again
  generalize loadWithEnvFile tokenLinesWorld = loaded at hload henv hmain ⊢
  rcases loaded with c | ⟨e | s, later⟩
  · cases hload
  · cases hload
  · obtain ⟨-, -, -, -, hsettings, -, hover⟩ := hmain (.ok s) later rfl
    obtain ⟨u, hu, hsays⟩ := hover .token [] [] _ (Option.some.inj henv) path?_tokenName nofun later.read later.stat s
      hsettings.symm
    cases List.mem_singleton.1 hu
    rw [Says, @Variables.at?_of_path .token (tokenName, "t") path?_tokenName, hvalue] at hsays
    exact ⟨s, later, rfl, (Value.string.inj (Option.some.inj hsays)).symm⟩

/-- A later variable for the whole table takes the token away, and what the project has comes back. -/
theorem loadWithEnvFile_settles_table :
    tableLinesWorld.environment = [] ∧ ∃ settings later, loadWithEnvFile tableLinesWorld = .ok (settings, later) ∧
      later.environment.get? tokenName = some "t" ∧ settings.toOption.map token = some "x" := by
  have hload : EnvFile.load tableLinesWorld = .ok (EnvFile.filledWorld tableLinesWorld) :=
    EnvFile.load_eq_ok_iff.2 ⟨.of_forall (by decide +kernel), rfl⟩
  exact ⟨rfl, _, _, loadWithEnvFile_eq_ok_iff.2 ⟨hload, rfl⟩, by decide +kernel, by decide +kernel⟩

end Settings

end RegistryPublisher
