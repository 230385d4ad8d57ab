import RegistryPublisher.World.File

/-!
# Paths that lead to no file

- `foldlM_eq_error_iff`: a walk ends at its first step that fails;
- `FileTree.Stopped`: why a step fails: in a file, at a name that is too long, and where nothing has the name
  (`step_eq_error_iff`);
- `FileTree.resolve_eq_error_iff` and `read_eq_error_iff_resolve`: how a path fails, and a place that is no file;
- `FileTree.Blocked`: why a path cannot be read; there are no other reasons (`read_eq_error_iff`).
-/

namespace RegistryPublisher

theorem foldlM_eq_error_iff {ε α β : Type} {f : β → α → Except ε β} {e : ε} {l : List α} {b : β} :
    l.foldlM f b = .error e ↔
      ∃ before a after b', l = before ++ a :: after ∧ before.foldlM f b = .ok b' ∧ f b' a = .error e := by
  induction l generalizing b with
  | nil => simp [pure, Except.pure]
  | cons a l ih =>
    rw [List.foldlM_cons]
    cases hstep : f b a with
    | error e' =>
      constructor
      · intro h
        exact ⟨[], a, l, b, rfl, rfl, hstep.trans (congrArg Except.error (Except.error.inj h))⟩
      · rintro ⟨_ | ⟨c, before⟩, c', after, b', heq, hwalk, hlast⟩
        · cases heq
          cases hwalk
          exact hstep.symm.trans hlast
        · cases heq
          rw [List.foldlM_cons, hstep] at hwalk
          exact nomatch hwalk
    | ok b' =>
      refine (ih (b := b')).trans ⟨?_, ?_⟩
      · rintro ⟨before, c, after, b'', rfl, hwalk, hlast⟩
        refine ⟨a :: before, c, after, b'', rfl, ?_, hlast⟩
        rw [List.foldlM_cons, hstep]
        exact hwalk
      · rintro ⟨_ | ⟨c, before⟩, c', after, b'', heq, hwalk, hlast⟩
        · cases heq
          cases hwalk
          exact absurd (hstep.symm.trans hlast) nofun
        · cases heq
          rw [List.foldlM_cons, hstep] at hwalk
          exact ⟨before, c', after, b'', rfl, hwalk, hlast⟩

namespace FileTree

variable {t : FileTree} {directory place : List String} {path name : String} {e : FileError}

/-- Where a path starts. -/
def start (directory : List String) (path : String) : List String := if Path.isAbsolute path then [] else directory

/-- Paths that can be walked along. -/
structure Usable (path : String) : Prop where
  nul : Char.ofNat 0 ∉ path.toList
  nonempty : path ≠ ""
  length : path.utf8ByteSize ≤ maxPath

/-- A name that has to be looked up in a folder. -/
def IsEntry (name : String) : Prop := ¬(name = "" ∨ name = ".") ∧ name ≠ ".."

theorem isEntry_of_long (h : maxName < name.utf8ByteSize) : IsEntry name := by
  constructor
  · rintro (rfl | rfl)
    · exact absurd h (by decide)
    · exact absurd h (by decide)
  · rintro rfl
    exact absurd h (by decide)

/-- Why a step along a path fails. -/
inductive Stopped (t : FileTree) (place : List String) (name : String) : FileError → Prop
  | gone (node : t.node? place = none) : Stopped t place name .notFound
  | throughFile {content : Bytes} (node : t.node? place = some (.file content)) : Stopped t place name .notDirectory
  | longName (node : t.node? place = some .folder) (h : maxName < name.utf8ByteSize) : Stopped t place name .nameTooLong
  | missing (node : t.node? place = some .folder) (entry : IsEntry name) (length : name.utf8ByteSize ≤ maxName)
      (h : t.node? (place ++ [name]) = none) : Stopped t place name .notFound

theorem step_eq_error_iff : t.step place name = .error e ↔ t.Stopped place name e := by
  unfold step
  constructor
  · intro h
    split at h
    · next node => exact Except.error.inj h ▸ .gone node
    · next node => exact Except.error.inj h ▸ .throughFile node
    next node =>
    split at h
    · cases h
    next hstay =>
    split at h
    · cases h
    next hup =>
    split at h
    · next hlong => exact Except.error.inj h ▸ .longName node hlong
    next hlong =>
    split at h
    · cases h
    · next hentry =>
      exact Except.error.inj h ▸ .missing node ⟨hstay, hup⟩ (Nat.not_lt.1 hlong) (Option.not_isSome_iff_eq_none.1 hentry)
  · intro h
    cases h with
    | gone node => rw [node]
    | throughFile node => rw [node]
    | longName node hlong =>
      obtain ⟨hstay, hup⟩ := isEntry_of_long hlong
      simp only [node, if_neg hstay, if_neg hup, if_pos hlong]
    | missing node entry length hnone =>
      simp only [node, if_neg entry.1, if_neg entry.2, if_neg (Nat.not_lt.2 length), hnone]
      rfl

/-- Why a path cannot be read. -/
inductive Blocked (t : FileTree) (directory : List String) (path : String) : FileError → Prop
  | nul (h : Char.ofNat 0 ∈ path.toList) : Blocked t directory path .nulInPath
  | empty (h : path = "") : Blocked t directory path .notFound
  | long (hnul : Char.ofNat 0 ∉ path.toList) (h : maxPath < path.utf8ByteSize) : Blocked t directory path .nameTooLong
  | step {before after : List String} {place : List String} {name : String} {e : FileError} (h : Usable path)
      (names : Path.names path = before ++ name :: after) (walk : before.foldlM t.step (start directory path) = .ok place)
      (stop : t.Stopped place name e) : Blocked t directory path e
  | gone {place : List String} (h : t.resolve directory path = .ok place) (node : t.node? place = none) :
      Blocked t directory path .notFound
  | folder {place : List String} (h : t.resolve directory path = .ok place) (node : t.node? place = some .folder) :
      Blocked t directory path .isDirectory

theorem resolve_of_usable (t : FileTree) (directory : List String) (h : Usable path) :
    t.resolve directory path = (Path.names path).foldlM t.step (start directory path) := by
  rw [resolve, if_neg (by simpa using h.nul), if_neg (by simpa using h.nonempty), if_neg (by have := h.length; omega), start]

/-- Paths that cannot be walked along are told apart in this order. -/
theorem resolve_eq_error_iff : t.resolve directory path = .error e ↔
    (Char.ofNat 0 ∈ path.toList ∧ e = .nulInPath) ∨ (path = "" ∧ e = .notFound) ∨
      (Char.ofNat 0 ∉ path.toList ∧ maxPath < path.utf8ByteSize ∧ e = .nameTooLong) ∨
      (Usable path ∧ (Path.names path).foldlM t.step (start directory path) = .error e) := by
  by_cases hnul : Char.ofNat 0 ∈ path.toList
  · have hempty : path ≠ "" := by
      rintro rfl
      cases hnul
    have husable : ¬Usable path := fun h => h.nul hnul
    rw [resolve, if_pos (by simpa using hnul)]
    simp [hnul, hempty, husable, eq_comm]
  by_cases hempty : path = ""
  · have hshort : ¬maxPath < path.utf8ByteSize := by
      rw [hempty]
      decide
    have husable : ¬Usable path := fun h => h.nonempty hempty
    rw [resolve, if_neg (by simpa using hnul), if_pos (by simpa using hempty)]
    simp [hnul, eq_true hempty, hshort, husable, eq_comm]
  by_cases hlong : maxPath < path.utf8ByteSize
  · have husable : ¬Usable path := fun h => Nat.not_lt.2 h.length hlong
    rw [resolve, if_neg (by simpa using hnul), if_neg (by simpa using hempty), if_pos hlong]
    simp [hnul, hempty, hlong, husable, eq_comm]
  · have husable : Usable path := ⟨hnul, hempty, Nat.not_lt.1 hlong⟩
    rw [resolve_of_usable t directory husable]
    simp [hnul, hempty, hlong, husable]

/-- A path is read up to its place, and there must be a file. -/
theorem read_eq_error_iff_resolve : t.read directory path = .error e ↔ t.resolve directory path = .error e ∨
    ∃ place, t.resolve directory path = .ok place ∧
      ((t.node? place = none ∧ e = .notFound) ∨ (t.node? place = some .folder ∧ e = .isDirectory)) := by
  rw [read]
  cases hplace : t.resolve directory path with
  | error e' => simp [bind, Except.bind]
  | ok place =>
    rcases hnode : t.node? place with - | (content | -) <;> simp [bind, Except.bind, hnode, eq_comm]

/-- There are no other reasons. -/
theorem read_eq_error_iff : t.read directory path = .error e ↔ t.Blocked directory path e := by
  rw [read_eq_error_iff_resolve, resolve_eq_error_iff]
  constructor
  · rintro ((⟨h, rfl⟩ | ⟨h, rfl⟩ | ⟨hnul, h, rfl⟩ | ⟨husable, hwalk⟩) | ⟨place, hplace, ⟨hnode, rfl⟩ | ⟨hnode, rfl⟩⟩)
    · exact .nul h
    · exact .empty h
    · exact .long hnul h
    · obtain ⟨before, name, after, place, hnames, hwalk, hstop⟩ := foldlM_eq_error_iff.1 hwalk
      exact .step husable hnames hwalk (step_eq_error_iff.1 hstop)
    · exact .gone hplace hnode
    · exact .folder hplace hnode
  · intro h
    cases h with
    | nul h => exact Or.inl (Or.inl ⟨h, rfl⟩)
    | empty h => exact Or.inl (Or.inr (Or.inl ⟨h, rfl⟩))
    | long hnul h => exact Or.inl (Or.inr (Or.inr (Or.inl ⟨hnul, h, rfl⟩)))
    | step husable hnames hwalk hstop =>
      have hfails := foldlM_eq_error_iff.2 ⟨_, _, _, _, hnames, hwalk, step_eq_error_iff.2 hstop⟩
      exact Or.inl (Or.inr (Or.inr (Or.inr ⟨husable, hfails⟩)))
    | gone hplace hnode => exact Or.inr ⟨_, hplace, Or.inl ⟨hnode, rfl⟩⟩
    | folder hplace hnode => exact Or.inr ⟨_, hplace, Or.inr ⟨hnode, rfl⟩⟩

end FileTree

end RegistryPublisher
