import RegistryPublisher.Proofs.Command.Target
import RegistryPublisher.Proofs.World.FileTree

/-!
# Where a publication has its token from

- `Login.loadFile_eq_none_iff`, `loadFile_eq_unreadable_iff`, `loadFile_eq_invalid_iff`: each outcome of loading a token
  file, by what reading its path and decoding its text gives; without a home directory there may be no path
  (`load_eq_homeless_iff`);
- `Target.forPublish_eq_login_iff`, `forPublish_eq_notAuthenticated_iff`: without a configured token a publication fails as
  the token file says;
- `Target.forPublish_decides`: so a token is configured or recorded, or there is one failure for each state of the file.
-/

namespace RegistryPublisher

namespace Login

variable {w : World} {s : Settings} {path file : String}

theorem path?_eq (w : World) (s : Settings) : path? w s =
    if s.tokenFile = "" then w.home?.map (Path.join · ".mcp_publisher_token") else some s.tokenFile := by
  simp only [path?, String.isEmpty_iff, fileName]

theorem loadFile_eq_none_iff : loadFile w path = .ok none ↔ w.read path = .error .notFound := by
  unfold loadFile
  constructor
  · intro h
    split at h
    · assumption
    · cases h
    · split at h <;> cases h
  · intro h
    rw [h]

theorem loadFile_eq_unreadable_iff {cause : FileError} : loadFile w path = .error (.unreadable file cause) ↔
    file = path ∧ w.read path = .error cause ∧ cause ≠ .notFound := by
  unfold loadFile
  constructor
  · intro h
    split at h
    · cases h
    · next hother hread =>
      cases h
      exact ⟨rfl, hread, hother⟩
    · split at h <;> cases h
  · rintro ⟨rfl, hread, hother⟩
    rw [hread]
    cases cause with
    | notFound => exact absurd rfl hother
    | _ => rfl

theorem loadFile_eq_invalid_iff {cause : Json.Error} : loadFile w path = .error (.invalid file cause) ↔
    file = path ∧ ∃ text, w.read path = .ok text ∧ decode text = .error cause := by
  unfold loadFile
  constructor
  · intro h
    split at h
    · cases h
    · cases h
    · next text hread =>
      split at h
      · cases h
      · next hdecode =>
        cases h
        exact ⟨rfl, text, hread, hdecode⟩
  · rintro ⟨rfl, text, hread, hdecode⟩
    rw [hread]
    simp only [hdecode]

theorem loadFile_ne_homeless : loadFile w path ≠ .error .homeless := by
  unfold loadFile
  split
  · nofun
  · nofun
  · split <;> nofun

theorem load_eq_homeless_iff : load w s = .error .homeless ↔ path? w s = none := by
  cases hp : path? w s with
  | none =>
    rw [load, hp]
    exact ⟨fun _ => rfl, fun _ => rfl⟩
  | some path =>
    rw [load_of_path hp]
    exact iff_of_false loadFile_ne_homeless (Option.some_ne_none path)

/-- Every other outcome is that of the token file. -/
theorem load_eq_iff {x : Except LoginFailure (Option Login)} (hx : x ≠ .error .homeless) :
    load w s = x ↔ ∃ path, path? w s = some path ∧ loadFile w path = x := by
  cases hp : path? w s with
  | none =>
    rw [load, hp]
    simpa using hx.symm
  | some path =>
    rw [load_of_path hp]
    simp only [Option.some.injEq, exists_eq_left']

theorem load_eq_unreadable_iff {cause : FileError} : load w s = .error (.unreadable file cause) ↔
    path? w s = some file ∧ w.read file = .error cause ∧ cause ≠ .notFound := by
  have hload := @load_eq_iff w s (.error (.unreadable file cause)) nofun
  simp only [loadFile_eq_unreadable_iff] at hload
  rw [hload]
  constructor
  · rintro ⟨path, hp, rfl, hread⟩
    exact ⟨hp, hread⟩
  · rintro ⟨hp, hread⟩
    exact ⟨file, hp, rfl, hread⟩

theorem load_eq_invalid_iff {cause : Json.Error} : load w s = .error (.invalid file cause) ↔
    path? w s = some file ∧ ∃ text, w.read file = .ok text ∧ decode text = .error cause := by
  have hload := @load_eq_iff w s (.error (.invalid file cause)) nofun
  simp only [loadFile_eq_invalid_iff] at hload
  rw [hload]
  constructor
  · rintro ⟨path, hp, rfl, hread⟩
    exact ⟨hp, hread⟩
  · rintro ⟨hp, hread⟩
    exact ⟨file, hp, rfl, hread⟩

end Login

namespace Target

variable {w : World} {s : Settings} {flag : Option String} {e : Endpoint}

/-! ## Tokens -/

theorem Token.ne_empty {token : String} (h : Token w s token) : token ≠ "" := by
  cases h with
  | configured h => exact h
  | stored _ _ hl => exact hl

theorem exists_token_iff : (∃ token, Token w s token) ↔ s.token ≠ "" ∨ ∃ l, Login.Stored w s l ∧ l.token ≠ "" := by
  constructor
  · rintro ⟨_, h | ⟨h, hl, hne⟩⟩
    · exact Or.inl h
    · exact Or.inr ⟨_, hl, hne⟩
  · intro h
    by_cases ht : s.token = ""
    · obtain ⟨l, hl, hne⟩ := h.resolve_left (not_not_intro ht)
      exact ⟨l.token, .stored ht hl hne⟩
    · exact ⟨s.token, .configured ht⟩

/-! ## Failures -/

/-- A configured token keeps everything else in the world out. -/
theorem forPublish_of_configured (h : s.token ≠ "") (w w' : World) :
    forPublish w' s flag = forPublish w s flag := by
  have htoken : s.token? = some s.token := if_neg (mt String.isEmpty_iff.1 h)
  simp only [forPublish, htoken]

/-- Without one the token file is loaded. -/
theorem forPublish_of_not_configured (h : s.token = "") : forPublish w s flag =
    match Login.load w s with
    | .error cause => .error (.login cause)
    | .ok none => .error .notAuthenticated
    | .ok (some l) =>
      if l.token = "" then .error .notAuthenticated else .ok ⟨registryUrl flag s (some l), some l.token⟩ := by
  have htoken : s.token? = none := if_pos (String.isEmpty_iff.2 h)
  unfold forPublish
  rw [htoken]
  rcases Login.load w s with e | - | l
  · rfl
  · rfl
  · simp only [String.isEmpty_iff]

theorem forPublish_eq_login_iff (h : s.token = "") {cause : LoginFailure} :
    forPublish w s flag = .error (.login cause) ↔ Login.load w s = .error cause := by
  rw [forPublish_of_not_configured h]
  rcases Login.load w s with e | - | l
  · simp
  · simp
  · by_cases hl : l.token = "" <;> simp [hl]

theorem forPublish_eq_notAuthenticated_iff (h : s.token = "") : forPublish w s flag = .error .notAuthenticated ↔
    ∃ path, Login.path? w s = some path ∧
      (w.read path = .error .notFound ∨ ∃ l, w.Holds path Login.decode l ∧ l.token = "") := by
  have hload : forPublish w s flag = .error .notAuthenticated ↔
      Login.load w s = .ok none ∨ ∃ l, Login.load w s = .ok (some l) ∧ l.token = "" := by
    rw [forPublish_of_not_configured h]
    rcases Login.load w s with e | - | l
    · simp
    · simp
    · by_cases hl : l.token = "" <;> simp [hl]
  rw [hload, @Login.load_eq_iff w s (.ok none) nofun]
  simp only [Login.load_eq_some_iff, Login.loadFile_eq_none_iff]
  constructor
  · rintro (⟨path, hp, hread⟩ | ⟨l, ⟨path, hp, hl⟩, htoken⟩)
    · exact ⟨path, hp, Or.inl hread⟩
    · exact ⟨path, hp, Or.inr ⟨l, hl, htoken⟩⟩
  · rintro ⟨path, hp, hread | ⟨l, hl, htoken⟩⟩
    · exact Or.inl ⟨path, hp, hread⟩
    · exact Or.inr ⟨l, ⟨path, hp, hl⟩, htoken⟩

/-- **Where a publication has its token from.** The token file is the configured one, or that in the home directory, and
there is none when there is no home directory. A publication has somewhere to go exactly when the configured token is not
empty or this file holds a login whose token is not empty; then it has a token that is not empty, the configured one or
else that of the login. With a configured token it does not depend on the file. Without one it fails as not authenticated
exactly when the file is not there or holds a login without a token, as unreadable exactly when reading it fails in
another way, as invalid exactly when it is read and holds no login, and for want of a home directory exactly when one is
needed and there is none. In a tree of files a path that leads to no file is unreadable for what blocks it. -/
theorem forPublish_decides (w : World) (s : Settings) (flag : Option String) :
    let path? := if s.tokenFile = "" then w.home?.map (Path.join · ".mcp_publisher_token") else some s.tokenFile
    let recorded (l : Login) : Prop := ∃ path, path? = some path ∧ w.Holds path Login.decode l
    let outcome := forPublish w s flag
    ((∃ e, outcome = .ok e) ↔ s.token ≠ "" ∨ ∃ l, recorded l ∧ l.token ≠ "") ∧
    (∀ e, outcome = .ok e → ∃ token, e.token = some token ∧ token ≠ "" ∧
      (s.token ≠ "" → token = s.token) ∧
      (s.token = "" → ∃ l, recorded l ∧ token = l.token)) ∧
    (s.token ≠ "" → ∀ w', forPublish w' s flag = outcome) ∧
    (s.token = "" →
      (outcome = .error .notAuthenticated ↔ ∃ path, path? = some path ∧
        (w.read path = .error .notFound ∨ ∃ l, w.Holds path Login.decode l ∧ l.token = "")) ∧
      (∀ file cause, outcome = .error (.login (.unreadable file cause)) ↔
        path? = some file ∧ w.read file = .error cause ∧ cause ≠ .notFound) ∧
      (∀ file cause, outcome = .error (.login (.invalid file cause)) ↔
        path? = some file ∧ ∃ text, w.read file = .ok text ∧ Login.decode text = .error cause) ∧
      (outcome = .error (.login .homeless) ↔ path? = none) ∧
      ∀ (files : FileTree) (directory : List String), w.read = files.read directory → ∀ path cause, path? = some path →
        (outcome = .error (.login (.unreadable path cause)) ↔
          files.Blocked directory path cause ∧ cause ≠ .notFound)) := by
  intro path? recorded outcome
  have hpath : path? = Login.path? w s := (Login.path?_eq w s).symm
  have hrecorded : ∀ l, recorded l ↔ Login.Stored w s l := fun l => by
    show (∃ path, path? = some path ∧ _) ↔ _
    rw [hpath, Login.Stored]
  simp only [hrecorded]
  rw [hpath]
  refine ⟨?_, fun e he => ?_, fun ht w' => forPublish_of_configured ht w w', fun ht => ?_⟩
  · refine Iff.trans ?_ exists_token_iff
    constructor
    · rintro ⟨e, he⟩
      obtain ⟨token, htoken, -⟩ := forPublish_eq_ok_iff.1 he
      exact ⟨token, htoken⟩
    · rintro ⟨token, htoken⟩
      exact ⟨_, forPublish_eq_ok_iff.2 ⟨token, htoken, rfl⟩⟩
  · obtain ⟨token, htoken, rfl⟩ := forPublish_eq_ok_iff.1 he
    refine ⟨token, rfl, htoken.ne_empty, ?_⟩
    cases htoken with
    | configured h => exact ⟨fun _ => rfl, fun ht => absurd ht h⟩
    | stored h hl _ => exact ⟨fun ht => absurd h ht, fun _ => ⟨_, hl, rfl⟩⟩
  · have hunreadable : ∀ file cause, outcome = .error (.login (.unreadable file cause)) ↔
        Login.path? w s = some file ∧ w.read file = .error cause ∧ cause ≠ .notFound := fun file cause =>
      (forPublish_eq_login_iff ht).trans Login.load_eq_unreadable_iff
    refine ⟨forPublish_eq_notAuthenticated_iff ht, hunreadable, fun file cause => ?_, ?_,
      fun files directory hw path cause hp => ?_⟩
    · exact (forPublish_eq_login_iff ht).trans Login.load_eq_invalid_iff
    · exact (forPublish_eq_login_iff ht).trans Login.load_eq_homeless_iff
    · rw [hunreadable, and_iff_right hp, hw, FileTree.read_eq_error_iff]

/-- A home directory with a token file that says nothing. -/
def homeFiles : FileTree := ⟨[(["home"], .folder), (["home", ".mcp_publisher_token"], .file [0x7b, 0x7d])]⟩

/-- A world with these files, which may lack a home directory. -/
def homeWorld (home : Option String) : World where
  read := homeFiles.read []
  environment := []
  directory := "/"
  accountHome := home

/-- A folder is no token file, a file without a token is the same as none, and without a home directory there is no file
to look for; with a configured token none of these matters. -/
theorem forPublish_decides_folder :
    let w := homeWorld (some "/home")
    forPublish w ⟨"", "", "/home"⟩ none = .error (.login (.unreadable "/home" .isDirectory)) ∧
      forPublish w ⟨"", "", ""⟩ none = .error .notAuthenticated ∧
      forPublish (homeWorld none) ⟨"", "", ""⟩ none = .error (.login .homeless) ∧
      forPublish (homeWorld none) ⟨"", "t", ""⟩ none = .ok ⟨Endpoint.standardUrl, some "t"⟩ := by
  intro w
  have hfolder : homeFiles.Blocked [] "/home" .isDirectory := FileTree.read_eq_error_iff.1 rfl
  have hread : w.read "/home/.mcp_publisher_token" = .ok [0x7b, 0x7d] := by rfl
  have hlogin : w.Holds "/home/.mcp_publisher_token" Login.decode ⟨"", ""⟩ := ⟨_, hread, rfl⟩
  obtain ⟨-, -, -, -, hunreadable⟩ := (forPublish_decides w ⟨"", "", "/home"⟩ none).2.2.2 rfl
  obtain ⟨habsent, -⟩ := (forPublish_decides w ⟨"", "", ""⟩ none).2.2.2 rfl
  obtain ⟨-, -, -, hhomeless, -⟩ := (forPublish_decides (homeWorld none) ⟨"", "", ""⟩ none).2.2.2 rfl
  exact ⟨(hunreadable homeFiles [] rfl _ _ rfl).2 ⟨hfolder, nofun⟩, habsent.2 ⟨_, rfl, Or.inr ⟨_, hlogin, rfl⟩⟩,
    hhomeless.2 rfl, rfl⟩

end Target

end RegistryPublisher
