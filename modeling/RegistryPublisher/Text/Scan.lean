/-!
# Scanning text

- `Scan α` takes characters off a text and gives a value, or refuses; `<|>` goes back to where the first scan began;
- `Scan.all` runs a scan that has to take the whole text.
-/

namespace RegistryPublisher.Text

/-- Takes characters off a text and gives a value, or refuses. -/
abbrev Scan := StateT (List Char) Option

namespace Scan

variable {α β : Type}

/-- The next character. -/
def next : Scan Char := fun
  | [] => none
  | c :: cs => some (c, cs)

/-- The next character, which stays where it is; none at the end. -/
def peek : Scan (Option Char) := fun cs => some (cs.head?, cs)

/-- Takes one character of a class. -/
def oneOf (p : Char → Bool) : Scan Char := do
  let c ← next
  if p c then return c else failure

/-- Takes the given character. -/
def char (c : Char) : Scan Unit := do
  let _ ← oneOf (· == c)

/-- Takes the given characters. -/
def chars : List Char → Scan Unit
  | [] => return
  | c :: cs => do
    char c
    chars cs

/-- Takes the given text. -/
def word (s : String) : Scan Unit := chars s.toList

/-- Takes all characters of a class that come next. -/
def span (p : Char → Bool) : Scan (List Char) := fun cs => some (cs.takeWhile p, cs.dropWhile p)

/-- Takes all characters of a class that come next, at least one. -/
def span1 (p : Char → Bool) : Scan (List Char) := do
  let cs ← span p
  if cs.isEmpty then failure else return cs

/-- Passes all characters of a class that come next. -/
def skip (p : Char → Bool) : Scan Unit := do
  let _ ← span p

/-- Only at the end of the text. -/
def atEnd : Scan Unit := fun
  | [] => some ((), [])
  | _ :: _ => none

/-- At most `fuel` values. -/
def manyFrom (x : Scan α) : Nat → Scan (List α)
  | 0 => return []
  | fuel + 1 => (do
      let a ← x
      return a :: (← manyFrom x fuel)) <|> return []

/-- As many values as there are, if each takes a character at least. -/
def many (x : Scan α) : Scan (List α) := fun cs => manyFrom x cs.length cs

/-- Values with a separator between them, at least one. -/
def separated (x : Scan α) (separator : Scan β) : Scan (List α) := do
  let a ← x
  return a :: (← many (do
    let _ ← separator
    x))

/-- What a scan makes of a whole text. -/
def all (x : Scan α) (s : String) : Option α := (do
  let a ← x
  atEnd
  return a : Scan α).run' s.toList

end Scan

end RegistryPublisher.Text
