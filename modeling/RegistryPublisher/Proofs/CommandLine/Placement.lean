import RegistryPublisher.CommandLine.Arguments

/-!
# Where options may stand

A command line is written as parts around the command: options at both places, and a file after the command.

- `Level.read_resolve`: a part of a kind that its place does not have yet is taken up;
- `Arguments.reads_words`: so are all parts of a place, for any reader that takes part by part (`Reads`);
- `parseBefore_readsOptions`, `parseAfter_reads`: the readers before and after the command do;
- `Arguments.parse_anywhere`: so a command line means the same wherever its options stand.
-/

namespace RegistryPublisher

/-! ## Command lines as they are written -/

/-- The name of a command. -/
def Command.name : Command → String
  | publish => "publish"
  | validate => "validate"

namespace Arguments

/-- A text that is an argument but no option: it is not empty and does not begin with a hyphen. -/
def IsWord (s : String) : Prop := s ≠ "" ∧ s.toList.head? ≠ some '-'

instance : DecidablePred IsWord := fun _ => inferInstanceAs (Decidable (_ ∧ _))

/-- What can be given at a place. -/
inductive Kind where
  | registry
  | quiet
  | verbose
  | file
  deriving DecidableEq, Repr

/-- Something that is given, and how it is written. -/
inductive Part where
  /-- The registry, in one argument with its option or in the next one. -/
  | registry (url : String) (joined : Bool)
  | quiet (short : Bool)
  | verbose (short : Bool)
  | file (name : String)
  deriving DecidableEq, Repr

namespace Part

/-- What a part gives. -/
def kind : Part → Kind
  | registry .. => .registry
  | quiet _ => .quiet
  | verbose _ => .verbose
  | file _ => .file

/-- The arguments of a part. -/
def words : Part → List String
  | registry url joined => if joined then ["--registry=" ++ url] else ["--registry", url]
  | quiet short => [if short then "-q" else "--quiet"]
  | verbose short => [if short then "-v" else "--verbose"]
  | file name => [name]

/-- A text in an argument of its own is a word. -/
def Proper : Part → Prop
  | registry url joined => joined = true ∨ IsWord url
  | file name => IsWord name
  | _ => True

instance : DecidablePred Proper
  | registry .. => inferInstanceAs (Decidable (_ ∨ _))
  | file name => inferInstanceAs (Decidable (IsWord name))
  | quiet _ => .isTrue trivial
  | verbose _ => .isTrue trivial

/-- The registry that a part gives. -/
def url? : Part → Option String
  | registry url _ => some url
  | _ => none

/-- The file that a part gives. -/
def name? : Part → Option String
  | file name => some name
  | _ => none

theorem name?_eq_none {p : Part} (h : p.kind ≠ .file) : p.name? = none := by
  cases p with
  | file name => exact absurd rfl h
  | _ => rfl

theorem Proper.ne_empty {p : Part} (h : p.Proper) : p ≠ .file "" := by
  rintro rfl
  exact h.1 rfl

end Part

/-- What is given at one place: in any order, each kind once at most. -/
structure Placed (parts : List Part) : Prop where
  proper : ∀ p ∈ parts, p.Proper
  once : (parts.map Part.kind).Nodup

/-- The arguments at one place. -/
def words (parts : List Part) : List String := parts.flatMap Part.words

/-- What is asked for with these parts before a command and after it. -/
def asked (c : Command) (before after : List Part) : Invocation where
  command := c
  file := (after.findSome? Part.name?).getD "server.json"
  registry := (after.findSome? Part.url?).or (before.findSome? Part.url?)
  quiet := (before ++ after).any (·.kind = .quiet)
  verbose := (before ++ after).any (·.kind = .verbose)

/-! ## Single arguments -/

theorem ofString_word {s : String} (h : IsWord s) : Argument.ofString s = .plain s := by
  obtain ⟨-, hhyphen⟩ := h
  unfold Argument.ofString
  -- all other shapes begin with a hyphen
  split <;> simp_all

theorem ofString_joined (url : String) : Argument.ofString ("--registry=" ++ url) = .long "registry" (some url) := by
  unfold Argument.ofString
  simp [String.toList_append, splitValue]

end Arguments

namespace Command

theorem ofName?_name (c : Command) : ofName? c.name = some c := by cases c <;> rfl

theorem name_ne_help (c : Command) : c.name ≠ "help" := by cases c <;> decide

/-- An option is no name of a command and does not ask for help in a word. -/
theorem ofName?_of_option {a : String} (h : Argument.ofString a ≠ .plain a) : ofName? a = none ∧ a ≠ "help" := by
  have hne : ∀ s, Argument.ofString s = .plain s → a ≠ s := fun s hs has => h (has ▸ hs)
  refine ⟨?_, hne _ rfl⟩
  rw [ofName?, if_neg (hne _ rfl), if_neg (hne _ rfl)]

end Command

/-! ## One place -/

namespace Level

open Arguments (Part Kind)

variable {l m : Level} {p : Part}

/-- Whether a place has something of a kind. -/
def has (l : Level) : Kind → Bool
  | .registry => l.registry.isSome
  | .quiet => l.quiet
  | .verbose => l.verbose
  | .file => l.file.isSome

/-- A place with further parts; the first of a kind stays. -/
def given (l : Level) (parts : List Part) : Level :=
  { l with
    registry := l.registry.or (parts.findSome? Part.url?)
    quiet := l.quiet || parts.any (·.kind = .quiet)
    verbose := l.verbose || parts.any (·.kind = .verbose)
    file := l.file.or (parts.findSome? Part.name?) }

theorem given_nil (l : Level) : l.given [] = l := by
  simp [given]

theorem given_append (l : Level) (ps qs : List Part) : (l.given ps).given qs = l.given (ps ++ qs) := by
  simp [given, Option.or_assoc, Bool.or_assoc]

theorem given_registry (h : l.registry = none) (url : String) (joined : Bool) :
    l.given [.registry url joined] = { l with registry := some url } := by
  simp [given, h, Part.kind, Part.url?, Part.name?]

theorem given_quiet (l : Level) (short : Bool) : l.given [.quiet short] = { l with quiet := true } := by
  simp [given, Part.kind, Part.url?, Part.name?]

theorem given_verbose (l : Level) (short : Bool) : l.given [.verbose short] = { l with verbose := true } := by
  simp [given, Part.kind, Part.url?, Part.name?]

theorem given_file (h : l.file = none) (name : String) : l.given [.file name] = { l with file := some name } := by
  simp [given, h, Part.kind, Part.url?, Part.name?]

theorem has_start (topic : Topic) (k : Kind) : (start topic).has k = false := by
  cases k <;> rfl

theorem has_given (l : Level) (parts : List Part) (k : Kind) :
    (l.given parts).has k = (l.has k || parts.any (·.kind = k)) := by
  cases k with
  | registry =>
    have hurl : ∀ p : Part, p.url?.isSome = decide (p.kind = .registry) := by rintro (_ | _ | _ | _) <;> rfl
    simp [given, has, Option.isSome_or, List.isSome_findSome?, hurl]
  | file =>
    have hname : ∀ p : Part, p.name?.isSome = decide (p.kind = .file) := by rintro (_ | _ | _ | _) <;> rfl
    simp [given, has, Option.isSome_or, List.isSome_findSome?, hname]
  | quiet => rfl
  | verbose => rfl

/-- All that taking up a value can do. -/
theorem resolve_cases (h : l.resolve = .ok m) :
    (l.pending = none ∧ m = l) ∨
    (∃ url, l.pending = some (.registry (some url)) ∧ l.registry = none ∧
      m = { l with pending := none, registry := some url }) ∨
    ∃ name, l.pending = some (.file name) ∧ name ≠ "" ∧ m = { l with pending := none, file := some name } := by
  unfold resolve at h
  split at h
  · next hp => exact .inl ⟨hp, (Except.ok.inj h).symm⟩
  · cases h
  · next url hp =>
    unfold takeRegistry at h
    split at h
    · cases h
    · next hno => exact .inr (.inl ⟨url, hp, Option.not_isSome_iff_eq_none.1 hno, (Except.ok.inj h).symm⟩)
  · next name hp =>
    split at h
    · cases h
    · next hname => exact .inr (.inr ⟨name, hp, mt String.isEmpty_iff.2 hname, (Except.ok.inj h).symm⟩)

theorem pending_of_resolve (h : l.resolve = .ok m) : m.pending = none := by
  obtain ⟨hp, rfl⟩ | ⟨url, -, -, rfl⟩ | ⟨name, -, -, rfl⟩ := resolve_cases h
  · exact hp
  · rfl
  · rfl

theorem awaitsValue_of_resolve (h : l.resolve = .ok m) : l.awaitsValue = false := by
  obtain ⟨hp, -⟩ | ⟨url, hp, -⟩ | ⟨name, hp, -⟩ := resolve_cases h <;> simp [awaitsValue, hp]

theorem hasFile_of_resolve (h : l.resolve = .ok m) : l.hasFile = m.has .file := by
  obtain ⟨hp, rfl⟩ | ⟨url, hp, -, rfl⟩ | ⟨name, hp, -, rfl⟩ := resolve_cases h <;> simp [hasFile, has, hp]

/-- Takes up a part. -/
def read (l : Level) : Part → Except Halt Level
  | .registry url true => do (← l.resolve).takeRegistry url
  | .registry url false => do return { ← l.resolve with pending := some (.registry (some url)) }
  | .quiet _ => l.takeFlag .quiet
  | .verbose _ => l.takeFlag .verbose
  | .file name => l.takeFile name

/-- **One part.** A part of a kind that its place does not have yet is taken up, at once or as the value that waits. -/
theorem read_resolve (h : l.resolve = .ok m) (hnew : m.has p.kind = false) (hname : p ≠ .file "") :
    ∃ l', l.read p = .ok l' ∧ l'.resolve = .ok (m.given [p]) := by
  have hpending : m.pending = none := pending_of_resolve h
  cases p with
  | registry url joined =>
    have hnone : m.registry = none := by simpa [has, Part.kind] using hnew
    rw [given_registry hnone]
    cases joined with
    | true =>
      refine ⟨{ m with registry := some url }, ?_, by simp [resolve, hpending]⟩
      simp [read, h, takeRegistry, hnone, bind, Except.bind]
    | false =>
      refine ⟨{ m with pending := some (.registry (some url)) }, by rw [read, h]; rfl, ?_⟩
      simp [resolve, takeRegistry, hnone, hpending]
  | quiet short =>
    have hno : m.quiet = false := hnew
    rw [given_quiet]
    refine ⟨{ m with quiet := true }, ?_, by simp [resolve, hpending]⟩
    simp [read, takeFlag, h, hno, bind, Except.bind, pure, Except.pure]
  | verbose short =>
    have hno : m.verbose = false := hnew
    rw [given_verbose]
    refine ⟨{ m with verbose := true }, ?_, by simp [resolve, hpending]⟩
    simp [read, takeFlag, h, hno, bind, Except.bind, pure, Except.pure]
  | file name =>
    have hno : m.has .file = false := hnew
    have hnone : m.file = none := by simpa [has] using hno
    have hname : name ≠ "" := fun hempty => hname (by rw [hempty])
    rw [given_file hnone]
    refine ⟨{ m with pending := some (.file name) }, ?_, by simp [resolve, hname, hpending]⟩
    simp [read, takeFile, hasFile_of_resolve h, hno, h, Functor.map, Except.map]

end Level

/-! ## Whole places -/

namespace Arguments

variable {α : Type} {next : Level → List String → Except Halt α} {parts before after : List Part} {p : Part}
  {l m : Level} {c : Command}

/-- A reader that takes up a part when its arguments come next. -/
def Reads (next : Level → List String → Except Halt α) (p : Part) : Prop :=
  ∀ l as, l.awaitsValue = false → next l (p.words ++ as) = do next (← l.read p) as

/-- **All parts.** A reader comes to what follows with all of them taken up, the last one perhaps as the value that
waits. -/
theorem reads_words (hreads : ∀ p ∈ parts, Reads next p) (hname : ∀ p ∈ parts, p ≠ .file "")
    (honce : (parts.map Part.kind).Nodup) (hnew : ∀ p ∈ parts, m.has p.kind = false) (h : l.resolve = .ok m) :
    ∃ l', l'.resolve = .ok (m.given parts) ∧ ∀ as, next l (words parts ++ as) = next l' as := by
  induction parts generalizing l m with
  | nil => exact ⟨l, by rwa [Level.given_nil], fun as => rfl⟩
  | cons p ps ih =>
    simp only [List.forall_mem_cons] at hreads hname hnew
    rw [List.map_cons, List.nodup_cons] at honce
    obtain ⟨l₁, hread, h₁⟩ := Level.read_resolve h hnew.1 hname.1
    -- the other parts are of other kinds, so they are still new
    have hnew₁ : ∀ q ∈ ps, (m.given [p]).has q.kind = false := by
      intro q hq
      have hne : p.kind ≠ q.kind := fun heq => honce.1 (heq ▸ List.mem_map_of_mem hq)
      simp [Level.has_given, hnew.2 q hq, hne]
    obtain ⟨l', hl', hnext⟩ := ih hreads.2 hname.2 honce.2 hnew₁ h₁
    refine ⟨l', by rwa [Level.given_append, List.singleton_append] at hl', fun as => ?_⟩
    calc next l (words (p :: ps) ++ as)
        = next l (p.words ++ (words ps ++ as)) := by rw [words, List.flatMap_cons, List.append_assoc]; rfl
      _ = next l₁ (words ps ++ as) := by rw [hreads.1 l _ (Level.awaitsValue_of_resolve h), hread]; rfl
      _ = next l' as := hnext as

/-! ## The readers before and after the command -/

/-- How a reader treats options, and the value of one that waits for it. -/
structure ReadsOptions (next : Level → List String → Except Halt α) : Prop where
  long : ∀ {l a as name value}, Argument.ofString a = .long name value →
    next l (a :: as) = do next (← l.takeLong name value) as
  short : ∀ {l a as flags}, Argument.ofString a = .short flags → next l (a :: as) = do next (← l.takeShort flags) as
  value : ∀ {l s as}, l.awaitsValue = true → IsWord s →
    next l (s :: as) = next { l with pending := some (.registry (some s)) } as

theorem ReadsOptions.reads (h : ReadsOptions next) (hp : p.Proper) (hkind : p.kind ≠ .file) : Reads next p := by
  intro l as hl
  cases p with
  | registry url joined =>
    cases joined with
    | true => exact h.long (ofString_joined url)
    | false =>
      have hurl : IsWord url := hp.resolve_left nofun
      have hoption : Argument.ofString "--registry" = .long "registry" none := rfl
      show next l ("--registry" :: url :: as) = _
      rw [h.long hoption]
      simp only [Level.takeLong, Level.read]
      cases l.resolve with
      | error halt => rfl
      | ok m => exact h.value rfl hurl
  | quiet short =>
    cases short with
    | true =>
      have hoption : Argument.ofString "-q" = .short ['q'] := rfl
      show next l ("-q" :: as) = _
      rw [h.short hoption]
      simp [Level.takeShort, Level.shortFlag?, Level.read]
    | false =>
      have hoption : Argument.ofString "--quiet" = .long "quiet" none := rfl
      exact h.long hoption
  | verbose short =>
    cases short with
    | true =>
      have hoption : Argument.ofString "-v" = .short ['v'] := rfl
      show next l ("-v" :: as) = _
      rw [h.short hoption]
      simp [Level.takeShort, Level.shortFlag?, Level.read]
    | false =>
      have hoption : Argument.ofString "--verbose" = .long "verbose" none := rfl
      exact h.long hoption
  | file name => exact absurd rfl hkind

theorem parseBefore_readsOptions : ReadsOptions (parseBefore · false) where
  long {l a as name value} h := by
    obtain ⟨hcommand, hhelp⟩ := Command.ofName?_of_option (a := a) (by rw [h]; nofun)
    rw [parseBefore, if_neg hhelp, hcommand, h]
    exact ite_self _
  short {l a as flags} h := by
    obtain ⟨hcommand, hhelp⟩ := Command.ofName?_of_option (a := a) (by rw [h]; nofun)
    rw [parseBefore, if_neg hhelp, hcommand, h]
    exact ite_self _
  value hl hs := by rw [parseBefore, if_pos hl, ofString_word hs]

theorem parseAfter_readsOptions : ReadsOptions (parseAfter · false) where
  long h := by rw [parseAfter, h]
  short h := by rw [parseAfter, h]
  value hl hs := by
    rw [parseAfter, ofString_word hs]
    exact if_pos hl

/-- After the command a file may be named too. -/
theorem parseAfter_reads (hp : p.Proper) : Reads (parseAfter · false) p := by
  cases p with
  | file name =>
    intro l as hl
    show parseAfter l false (name :: as) = _
    rw [parseAfter, ofString_word hp]
    exact if_neg (Bool.eq_false_iff.1 hl)
  | _ => exact parseAfter_readsOptions.reads hp nofun

/-- The arguments after a command, before whatever follows them. -/
theorem parseAfter_words (hafter : Placed after) (topic : Topic) :
    ∃ l, l.resolve = .ok ((Level.start topic).given after) ∧
      ∀ as, parseAfter (.start topic) false (words after ++ as) = parseAfter l false as :=
  reads_words (fun p hp => parseAfter_reads (hafter.proper p hp)) (fun p hp => (hafter.proper p hp).ne_empty)
    hafter.once (fun p _ => Level.has_start topic p.kind) rfl

/-- What follows two hyphens is the file, whatever it looks like. -/
theorem parseAfter_escape (h : l.resolve = .ok m) (hnew : m.has .file = false) {name : String} (hname : name ≠ "") :
    parseAfter l false ["--", name] = .ok (m.given [.file name]) := by
  obtain ⟨l', hread, hl'⟩ := Level.read_resolve (p := .file name) h hnew (by simp [hname])
  have htake : l.takeFile name = .ok l' := hread
  have hescape : Argument.ofString "--" = .escape := rfl
  rw [parseAfter, hescape]
  simp only [parseAfter, htake]
  exact hl'

/-- The arguments before a command, with the command and what follows it. -/
theorem parse_words (hbefore : Placed before) (hoptions : ∀ p ∈ before, p.kind ≠ .file) {as : List String}
    {inner : Level} (h : parseAfter (.start (.command c)) false as = .ok inner) :
    parse (words before ++ c.name :: as) = .ok (combine c ((Level.start .program).given before) inner) := by
  obtain ⟨l, hl, hnext⟩ := reads_words (l := .start .program) (m := .start .program)
    (fun p hp => parseBefore_readsOptions.reads (hbefore.proper p hp) (hoptions p hp))
    (fun p hp => (hbefore.proper p hp).ne_empty) hbefore.once (fun p _ => Level.has_start .program p.kind) rfl
  have hawaits : ¬l.awaitsValue = true := Bool.eq_false_iff.1 (Level.awaitsValue_of_resolve hl)
  rw [parse, hnext, parseBefore, if_neg hawaits, if_neg c.name_ne_help, c.ofName?_name]
  simp only [h, hl]
  rfl

/-! ## Whole command lines -/

theorem combine_given (c : Command) (before after : List Part) (outer inner : Topic) :
    combine c ((Level.start outer).given before) ((Level.start inner).given after) = asked c before after := by
  simp [combine, Level.given, Level.start, asked, defaultFile]

theorem asked_append_file (c : Command) (before : List Part) (hoptions : ∀ p ∈ after, p.kind ≠ .file) (name : String) :
    asked c before (after ++ [.file name]) = { asked c before after with file := name } := by
  have hnone : after.findSome? Part.name? = none :=
    List.findSome?_eq_none_iff.2 fun p hp => Part.name?_eq_none (hoptions p hp)
  simp [asked, List.findSome?_append, hnone, Part.kind, Part.url?, Part.name?]

/-- **Options may stand anywhere.** Each option may be given before the command and after it, once at each place and in
any order, and a file after the command, at any place among its options. The command line then asks for the command with
that file or the default one, with the flags of both places, and with the registry that is given after the command, or
else the one before it. Registries and files may be any words, also names of commands. A file that looks like an option
may come last, after two hyphens. -/
theorem parse_anywhere (c : Command) (hbefore : Placed before) (hoptions : ∀ p ∈ before, p.kind ≠ .file)
    (hafter : Placed after) :
    parse (words before ++ c.name :: words after) = .ok (asked c before after) ∧
    ((∀ p ∈ after, p.kind ≠ .file) → ∀ name, name ≠ "" →
      parse (words before ++ c.name :: (words after ++ ["--", name])) =
        .ok { asked c before after with file := name }) := by
  obtain ⟨l, hl, hnext⟩ := parseAfter_words hafter (.command c)
  constructor
  · have hinner : parseAfter (.start (.command c)) false (words after) =
        .ok ((Level.start (.command c)).given after) := by
      rw [← List.append_nil (words after), hnext, parseAfter, hl]
    rw [parse_words hbefore hoptions hinner, combine_given]
  · intro hnofile name hname
    have hnew : ((Level.start (.command c)).given after).has .file = false := by
      rw [Level.has_given, Level.has_start]
      simpa using hnofile
    have hinner : parseAfter (.start (.command c)) false (words after ++ ["--", name]) =
        .ok ((Level.start (.command c)).given (after ++ [.file name])) := by
      rw [hnext, parseAfter_escape hl hnew hname, Level.given_append]
    rw [parse_words hbefore hoptions hinner, combine_given, asked_append_file c before hnofile]

/-- Registries and a file with names of commands, the registry and a flag at both places; and a file that looks like an
option. -/
theorem parse_anywhere_names :
    let before : List Part := [.registry "help" false, .quiet true]
    let after : List Part := [.verbose false, .registry "validate" true, .quiet false]
    let named : List Part := [.verbose false, .file "publish", .registry "validate" true, .quiet false]
    (Placed before ∧ (∀ p ∈ before, p.kind ≠ .file) ∧ Placed after ∧ (∀ p ∈ after, p.kind ≠ .file) ∧ Placed named) ∧
    parse ["--registry", "help", "-q", "publish", "--verbose", "publish", "--registry=validate", "--quiet"] =
      .ok ⟨.publish, "publish", some "validate", true, true⟩ ∧
    parse ["--registry", "help", "-q", "publish", "--verbose", "--registry=validate", "--quiet", "--", "--help"] =
      .ok ⟨.publish, "--help", some "validate", true, true⟩ := by
  intro before after named
  have hbefore : Placed before := ⟨by decide, by decide⟩
  have hoptions : ∀ p ∈ before, p.kind ≠ .file := by decide
  have hafter : Placed after := ⟨by decide, by decide⟩
  have hnofile : ∀ p ∈ after, p.kind ≠ .file := by decide
  have hnamed : Placed named := ⟨by decide, by decide⟩
  exact ⟨⟨hbefore, hoptions, hafter, hnofile, hnamed⟩, (parse_anywhere .publish hbefore hoptions hnamed).1,
    (parse_anywhere .publish hbefore hoptions hafter).2 hnofile "--help" (by decide)⟩

end Arguments

end RegistryPublisher
