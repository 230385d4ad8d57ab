import RegistryPublisher.Text.Alphanumeric
import RegistryPublisher.Text.Blank
import RegistryPublisher.Text.Quoted
import RegistryPublisher.Text.Utf8
import RegistryPublisher.World

/-!
# Files of environment variables

- `EnvFile.lines` cuts a file into logical lines: a quoted value may go on over several lines;
- `EnvFile.line` reads one line, with variables replaced by their values;
- `EnvFile.path?` looks for the file from the current directory upwards;
- `EnvFile.load` sets the variables of the file that are not set yet, up to the first line that cannot be read; a value
  that no variable can have is a `Crash`.
-/

namespace RegistryPublisher.EnvFile

open RegistryPublisher.Text

/-! ## Logical lines -/

/-- Where in a line a character stands. -/
inductive Spot where
  | plain
  | blank
  | escape
  | weak
  | weakEscape
  | strong
  | strongEscape
  deriving DecidableEq, Repr

/-- The double quote. -/
def isWeakQuote (c : Char) : Bool := c.toNat = 0x22

/-- The single quote. -/
def isStrongQuote (c : Char) : Bool := c.toNat = 0x27

/-- The backslash. -/
def isBackslash (c : Char) : Bool := c.toNat = 0x5c

/-- The spot after a character outside quotes. -/
def Spot.afterPlain (c : Char) : Spot :=
  if isBackslash c then escape else if isWeakQuote c then weak else if isStrongQuote c then strong else plain

/-- The spot after a character. -/
def Spot.after : Spot → Char → Spot
  | plain, c => if isBlank c && c != '\n' && c != '\r' then blank else afterPlain c
  | blank, c => afterPlain c
  | escape, _ => plain
  | weak, c => if isBackslash c then weakEscape else if isWeakQuote c then plain else weak
  | weakEscape, _ => weak
  | strong, c => if isBackslash c then strongEscape else if isStrongQuote c then plain else strong
  | strongEscape, _ => strong

/-- The spot after a physical line; none when a comment begins in it, with the text before the comment. -/
def scan : Spot → List Char → Except (List Char) Spot
  | s, [] => .ok s
  | s, c :: cs =>
    if s = .blank ∧ c = '#' then .error []
    else (scan (s.after c) cs).mapError (c :: ·)

/-- A line without the break at its end. -/
def withoutBreak (cs : List Char) : List Char :=
  match cs.reverse with
  | '\n' :: '\r' :: r => r.reverse
  | '\n' :: r => r.reverse
  | _ => cs

/-- The physical lines of a file, each with its break. -/
def physicalLines : Bytes → List Bytes
  | [] => []
  | b :: bs =>
    if b = 0x0a then [b] :: physicalLines bs
    else match physicalLines bs with
      | [] => [[b]]
      | l :: ls => (b :: l) :: ls

/-- Joins physical lines into logical ones. A line that is not text, or a quote that is never closed, is no line. -/
def joinLines (before : List Char) (s : Spot) : List (Option String) → List (Option (List Char))
  | [] => if s = .plain then [] else [none]
  | none :: _ => [none]
  | some l :: ls =>
    let all := before ++ l.toList
    if (all.dropWhile isBlank).head? = some '#' then some [] :: joinLines [] .plain ls
    else match scan s l.toList with
      | .error kept => some (before ++ kept) :: joinLines [] .plain ls
      | .ok .plain => some (withoutBreak all) :: joinLines [] .plain ls
      | .ok s => joinLines all s ls

/-- A file without a byte order mark. -/
def withoutMark : Bytes → Bytes
  | 0xef :: 0xbb :: 0xbf :: bs => bs
  | bs => bs

/-- The logical lines of a file. -/
def lines (content : Bytes) : List (Option (List Char)) :=
  joinLines [] .plain ((physicalLines (withoutMark content)).map Utf8.decode?)

/-! ## Values -/

/-- A value that is being read. -/
structure Reading where
  output : List Char
  strong : Bool
  weak : Bool
  escaped : Bool
  /-- Only a comment may follow. -/
  ended : Bool
  /-- The name of a variable that is being read, and whether it is in braces. -/
  name : Option (Bool × List Char)

namespace Reading

/-- Nothing read. -/
def start : Reading := ⟨[], false, false, false, false, none⟩

/-- Adds a character to the value. -/
def push (r : Reading) (c : Char) : Reading := { r with output := r.output ++ [c] }

/-- Adds the value of a variable. -/
def substitute (r : Reading) (lookup : String → String) (name : List Char) : Reading :=
  { r with output := r.output ++ (lookup (String.ofList name)).toList, name := none }

/-- What an escaped character stands for. -/
def unescape? (c : Char) : Option Char :=
  if isBackslash c || isStrongQuote c || isWeakQuote c || c = '$' || c = ' ' then some c
  else if c = 'n' then some '\n'
  else none

/-- Reads a character of the name of a variable. The character that ends a bare name stands for itself. -/
def inName (r : Reading) (lookup : String → String) (braced : Bool) (name : List Char) (c : Char) : Reading :=
  if isAlphanumeric c then { r with name := some (braced, name ++ [c]) }
  else if braced then
    if c.toNat = 0x7d then r.substitute lookup name else { r with name := some (true, name ++ [c]) }
  else if c.toNat = 0x7b && name.isEmpty then { r with name := some (true, []) }
  else if c = '$' then { r.substitute lookup name with name := some (false, []) }
  else (r.substitute lookup name).push c

/-- Reads a character outside quotes. -/
def outside (r : Reading) (c : Char) : Reading :=
  if isStrongQuote c then { r with strong := true }
  else if isWeakQuote c then { r with weak := true }
  else if isBackslash c then { r with escaped := true }
  else if c = ' ' || c = '\t' then { r with ended := true }
  else r.push c

/-- Reads a character; none when it may not stand there. -/
def step (r : Reading) (lookup : String → String) (c : Char) : Option Reading :=
  if r.ended then (if c = ' ' || c = '\t' then some r else none)
  else if r.escaped then (unescape? c).map fun e => { r.push e with escaped := false }
  else if r.strong then some (if isStrongQuote c then { r with strong := false } else r.push c)
  else match r.name with
    | some (braced, name) => some (r.inName lookup braced name c)
    | none =>
      if c = '$' then some { r with name := some (false, []) }
      else if r.weak then
        some (if isWeakQuote c then { r with weak := false }
          else if isBackslash c then { r with escaped := true }
          else r.push c)
      else some (r.outside c)

/-- The value that was read; none inside quotes or braces. -/
def finish (r : Reading) (lookup : String → String) : Option String :=
  if r.strong || r.weak then none
  else match r.name with
    | none => some (String.ofList r.output)
    | some (true, _) => none
    | some (false, name) => some (String.ofList (r.substitute lookup name).output)

end Reading

/-- The value of the characters after an equals sign. -/
def readValue (lookup : String → String) : Reading → List Char → Option String
  | r, [] => r.finish lookup
  | r, c :: cs => if r.ended && c = '#' then r.finish lookup else (r.step lookup c).bind fun r => readValue lookup r cs

/-! ## Lines -/

/-- What a line says. -/
inductive Line where
  | blank
  | bad
  | entry (name value : String)
  deriving DecidableEq, Repr

/-- Whether a name may begin with a character. -/
def isNameStart (c : Char) : Bool := c.isAlpha || c = '_'

/-- Whether a name may go on with a character. -/
def isNameChar (c : Char) : Bool := c.isAlphanum || c = '_' || c = '.'

/-- The name at the beginning of a text, and what follows it without blanks between. -/
def splitName? : List Char → Option (String × List Char)
  | [] => none
  | c :: cs =>
    if isNameStart c then
      some (String.ofList (c :: cs.takeWhile isNameChar), (cs.dropWhile isNameChar).dropWhile isBlank)
    else none

/-- What follows an equals sign, without blanks between. -/
def afterEquals? : List Char → Option (List Char)
  | '=' :: cs => some (cs.dropWhile isBlank)
  | _ => none

/-- The name of an entry and what follows its equals sign; `export` before a name is passed over. -/
def splitEntry? (cs : List Char) : Option (String × List Char) := do
  let (name, rest) ← splitName? cs
  match afterEquals? rest with
  | some value => return (name, value)
  | none =>
    if name = "export" then
      let (name, rest) ← splitName? rest
      return (name, ← afterEquals? rest)
    else none

/-- Whether nothing but a comment is left. -/
def isOver (cs : List Char) : Bool := cs.isEmpty || cs.head? = some '#'

/-- What a logical line says. -/
def line (lookup : String → String) (cs : List Char) : Line :=
  let cs := (trimEnd cs).dropWhile isBlank
  if isOver cs then .blank
  else match splitEntry? cs with
    | none => .bad
    | some (name, rest) =>
      if isOver rest then .entry name ""
      else match readValue lookup .start rest with
        | some value => .entry name value
        | none => .bad

/-! ## Loading -/

/-- A variable was to have a value that holds a NUL; this ends the process. -/
structure Crash where
  name : String
  value : String
  deriving DecidableEq, Repr

/-- What the process says at its end. -/
def Crash.message (c : Crash) : String :=
  "failed to set environment variable \x60" ++ Text.quoted c.name ++ "\x60 to \x60" ++ Text.quoted c.value ++
    "\x60: file name contained an unexpected NUL byte"

/-- Whether a variable can have a value. -/
def isSettable (value : String) : Bool := !value.toList.contains (Char.ofNat 0)

/-- Sets a variable unless it is set. -/
def assign (env : Environment) (name value : String) : Except Crash Environment :=
  if env.isSet name || isSettable value then .ok (env.setIfMissing name value) else .error ⟨name, value⟩

/-- Sets the variables of some lines. -/
def loadLines (env : Environment) : List (Option (List Char)) → Except Crash Environment
  | [] => .ok env
  | none :: _ => .ok env
  | some l :: ls =>
    match line (fun name => (env.get? name).getD "") l with
    | .bad => .ok env
    | .blank => loadLines env ls
    | .entry name value =>
      match assign env name value with
      | .error c => .error c
      | .ok env => loadLines env ls

/-- The name of the file. -/
def fileName : String := ".env"

/-- The first of some directories that has the file. The search ends where it cannot be told whether there is one. -/
def search? (w : World) : List String → Option String
  | [] => none
  | d :: ds =>
    match w.stat (Path.join d fileName) with
    | .ok .file => some (Path.join d fileName)
    | .ok .other => search? w ds
    | .error .notFound => search? w ds
    | .error _ => none

/-- The nearest file, in the current directory or one above it. -/
def path? (w : World) : Option String := search? w (Path.ancestors w.directory)

/-- Sets the variables of the nearest file; a variable that is set keeps its value, and a file that cannot be read is
the same as none. -/
def load (w : World) : Except Crash World :=
  match path? w with
  | none => .ok w
  | some path =>
    match w.read path with
    | .error _ => .ok w
    | .ok content => (loadLines w.environment (lines content)).map fun env => { w with environment := env }

end RegistryPublisher.EnvFile
