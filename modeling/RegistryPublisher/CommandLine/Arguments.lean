/-!
# Command lines

Arguments are read from left to right. Options may stand before the command and after it, once at each place.

- `Arguments.parse` gives the `Invocation` that a command line asks for, or the `Halt` it ends in;
- `Level` is what was read at one of the two places. A value is taken up only with the argument after it, so that an
  argument that is not known is reported before a value that is not accepted.
-/

namespace RegistryPublisher

/-- What the program does. -/
inductive Command where
  | publish
  | validate
  deriving DecidableEq, Repr

/-- What a command line asks for. -/
structure Invocation where
  command : Command
  file : String
  registry : Option String
  quiet : Bool
  verbose : Bool
  deriving DecidableEq, Repr

namespace Invocation

/-- How much is logged; quiet wins over verbose. -/
def logLevel (i : Invocation) : String := if i.quiet then "error" else if i.verbose then "debug" else "warn"

end Invocation

/-- What help is about. -/
inductive Topic where
  | program
  | command (c : Command)
  | help
  deriving DecidableEq, Repr

/-- Why a command line is not accepted. -/
inductive Refusal where
  | invalidSubcommand
  | unknownArgument
  /-- The same option twice at one place. -/
  | repeatedArgument
  | invalidValue
  /-- A value for a flag. -/
  | tooManyValues
  | missingSubcommand
  /-- Nothing at all. -/
  | missingArguments
  deriving DecidableEq, Repr

/-- What a command line ends in when it asks for no command. -/
inductive Halt where
  | help (topic : Topic) (long : Bool)
  | version
  | refused (r : Refusal)
  deriving DecidableEq, Repr

/-! ## Single arguments -/

/-- What an argument looks like. -/
inductive Argument where
  /-- Two hyphens: no options follow. -/
  | escape
  | long (name : String) (value : Option String)
  | short (flags : List Char)
  | plain (s : String)
  deriving DecidableEq, Repr

/-- The text before the first equals sign and, if there is one, the text after it. -/
def splitValue (cs : List Char) : String × Option String :=
  (String.ofList (cs.takeWhile (· != '=')),
    match cs.dropWhile (· != '=') with
    | [] => none
    | _ :: v => some (String.ofList v))

/-- What an argument looks like. A single hyphen is no option. -/
def Argument.ofString (s : String) : Argument :=
  match s.toList with
  | ['-', '-'] => escape
  | '-' :: '-' :: cs => let (name, value) := splitValue cs; long name value
  | '-' :: c :: cs => short (c :: cs)
  | _ => plain s

/-- The command of a name. -/
def Command.ofName? (s : String) : Option Command :=
  if s = "publish" then some .publish else if s = "validate" then some .validate else none

/-! ## One place for options -/

/-- A value that waits for the next argument. -/
inductive Pending where
  | registry (value : Option String)
  | file (value : String)
  deriving DecidableEq, Repr

/-- What was read before the command, or after it. -/
structure Level where
  /-- What help at this place is about. -/
  topic : Topic
  registry : Option String
  quiet : Bool
  verbose : Bool
  file : Option String
  pending : Option Pending
  deriving DecidableEq, Repr

namespace Level

/-- Nothing read. -/
def start (topic : Topic) : Level := ⟨topic, none, false, false, none, none⟩

/-- Takes up the registry, once. -/
def takeRegistry (l : Level) (url : String) : Except Halt Level :=
  if l.registry.isSome then .error (.refused .repeatedArgument) else .ok { l with registry := some url }

/-- Takes up the value that waits. An option needs a value, and a file a name. -/
def resolve (l : Level) : Except Halt Level :=
  match l.pending with
  | none => .ok l
  | some (.registry none) => .error (.refused .invalidValue)
  | some (.registry (some url)) => { l with pending := none }.takeRegistry url
  | some (.file name) =>
    if name.isEmpty then .error (.refused .invalidValue) else .ok { l with pending := none, file := some name }

/-- Whether the next argument without hyphens is the value of an option. -/
def awaitsValue (l : Level) : Bool := l.pending == some (.registry none)

/-- Whether there is a file already. -/
def hasFile (l : Level) : Bool :=
  l.file.isSome || match l.pending with
    | some (.file _) => true
    | _ => false

/-- Whether nothing was given. -/
def isEmpty (l : Level) : Bool := l.registry.isNone && !l.quiet && !l.verbose && l.file.isNone

/-- The flags. -/
inductive Flag where
  | quiet
  | verbose
  | help (long : Bool)
  | version
  deriving DecidableEq, Repr

/-- Takes up a flag, once. -/
def takeFlag (l : Level) (f : Flag) : Except Halt Level := do
  let l ← l.resolve
  match f with
  | .quiet => if l.quiet then throw (.refused .repeatedArgument) else return { l with quiet := true }
  | .verbose => if l.verbose then throw (.refused .repeatedArgument) else return { l with verbose := true }
  | .help long => throw (.help l.topic long)
  | .version => throw .version

/-- The flag of a long name. The version is known before the command only. -/
def longFlag? (l : Level) (name : String) : Option Flag :=
  if name = "quiet" then some .quiet
  else if name = "verbose" then some .verbose
  else if name = "help" then some (.help true)
  else if name = "version" ∧ l.topic = .program then some .version
  else none

/-- The flag of a letter. -/
def shortFlag? (l : Level) (c : Char) : Option Flag :=
  if c = 'q' then some .quiet
  else if c = 'v' then some .verbose
  else if c = 'h' then some (.help false)
  else if c = 'V' ∧ l.topic = .program then some .version
  else none

/-- Takes up an option with a long name. -/
def takeLong (l : Level) (name : String) (value : Option String) : Except Halt Level :=
  if name = "registry" then do
    let l ← l.resolve
    match value with
    | some url => l.takeRegistry url
    | none => return { l with pending := some (.registry none) }
  else
    match l.longFlag? name, value with
    | none, _ => .error (.refused .unknownArgument)
    | some _, some _ => .error (.refused .tooManyValues)
    | some f, none => l.takeFlag f

/-- Takes up flags by their letters. -/
def takeShort (l : Level) (cs : List Char) : Except Halt Level :=
  cs.foldlM (fun l c =>
    match l.shortFlag? c with
    | some f => takeFlag l f
    | none => .error (.refused .unknownArgument)) l

/-- Takes up the name of a file. There is one at most. -/
def takeFile (l : Level) (name : String) : Except Halt Level :=
  if l.hasFile then .error (.refused .unknownArgument)
  else do return { ← l.resolve with pending := some (.file name) }

end Level

/-! ## Whole command lines -/

namespace Arguments

/-- Reads the arguments after a command. -/
def parseAfter : Level → Bool → List String → Except Halt Level
  | l, _, [] => l.resolve
  | l, true, a :: as => do parseAfter (← l.takeFile a) true as
  | l, false, a :: as =>
    match Argument.ofString a with
    | .escape => parseAfter l true as
    | .long name value => do parseAfter (← l.takeLong name value) false as
    | .short flags => do parseAfter (← l.takeShort flags) false as
    | .plain s =>
      if l.awaitsValue then parseAfter { l with pending := some (.registry (some s)) } false as
      else do parseAfter (← l.takeFile s) false as

/-- The file that is meant when none is named. -/
def defaultFile : String := "server.json"

/-- What both places ask for together; the later registry wins. -/
def combine (c : Command) (outer inner : Level) : Invocation where
  command := c
  file := inner.file.getD defaultFile
  registry := inner.registry <|> outer.registry
  quiet := outer.quiet || inner.quiet
  verbose := outer.verbose || inner.verbose

/-- The topics that `help` takes. -/
def topic : List String → Except Halt Topic
  | [] => .ok .program
  | [name] =>
    match Command.ofName? name with
    | some c => .ok (.command c)
    | none => if name = "help" then .ok .help else .error (.refused .invalidSubcommand)
  | _ => .error (.refused .invalidSubcommand)

/-- An argument before the command that is no option. -/
def refuse (escaped : Bool) (s : String) : Halt :=
  if escaped && ((Command.ofName? s).isSome || s = "help") then .refused .unknownArgument
  else .refused .invalidSubcommand

/-- Reads the arguments up to the command and, with `parseAfter`, those after it. -/
def parseBefore : Level → Bool → List String → Except Halt Invocation
  | l, _, [] => do
    let l ← l.resolve
    throw (.refused (if l.isEmpty then .missingArguments else .missingSubcommand))
  | _, true, a :: _ => .error (refuse true a)
  | l, false, a :: as =>
    if l.awaitsValue then
      match Argument.ofString a with
      | .escape => parseBefore l true as
      | .long name value => do parseBefore (← l.takeLong name value) false as
      | .short flags => do parseBefore (← l.takeShort flags) false as
      | .plain s => parseBefore { l with pending := some (.registry (some s)) } false as
    else if a = "help" then do throw (.help (← topic as) true)
    else
      match Command.ofName? a with
      | some c => do
        let inner ← parseAfter (.start (.command c)) false as
        return combine c (← l.resolve) inner
      | none =>
        match Argument.ofString a with
        | .escape => parseBefore l true as
        | .long name value => do parseBefore (← l.takeLong name value) false as
        | .short flags => do parseBefore (← l.takeShort flags) false as
        | .plain s => .error (refuse false s)

/-- What a command line asks for. -/
def parse (args : List String) : Except Halt Invocation := parseBefore (.start .program) false args

end Arguments

end RegistryPublisher
