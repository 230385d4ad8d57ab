import RegistryPublisher.Text.Escaped

/-!
# Strings of TOML

- `Toml.string` reads a string of any of the four kinds: between double or single quotes, on one line or on several.
-/

namespace RegistryPublisher.Toml

open RegistryPublisher.Text

/-- A blank inside a line. -/
def isBlank (c : Char) : Bool := c = ' ' || c = '\t'

/-- A line break. -/
def lineBreak : Scan Unit := Scan.char '\n' <|> Scan.word "\r\n"

/-- A character that stands for itself between single quotes. -/
def isLiteralChar (c : Char) : Bool := c = '\t' || (0x20 ≤ c.toNat && c.toNat != 0x7f && c.toNat != 0x27)

/-- A single quote. -/
def isSingleQuote (c : Char) : Bool := c.toNat = 0x27

/-- A double quote. -/
def isDoubleQuote (c : Char) : Bool := c.toNat = 0x22

/-- A text on one line between single quotes. -/
def literal : Scan String := do
  let _ ← Scan.oneOf isSingleQuote
  let cs ← Scan.span isLiteralChar
  let _ ← Scan.oneOf isSingleQuote
  return String.ofList cs

/-- A line break inside a text. -/
def breakChars : Scan (List Char) := do
  lineBreak
  return ['\n']

/-- A backslash at the end of a line, with the blanks and line breaks after it. -/
def joinedLines : Scan (List Char) := do
  let _ ← Scan.oneOf fun c => c.toNat = 0x5c
  Scan.skip isBlank
  lineBreak
  let _ ← Scan.many (lineBreak <|> do
    let _ ← Scan.span1 isBlank)
  return []

/-- One or two quotes inside a text between three of them. -/
def fewQuotes (isQuote : Char → Bool) : Scan (List Char) := do
  let cs ← Scan.span1 isQuote
  if cs.length ≤ 2 then return cs else failure

/-- The quotes at the end of a text between three of them; up to two more belong to the text. -/
def closingQuotes (isQuote : Char → Bool) : Scan (List Char) := do
  let cs ← Scan.span1 isQuote
  if 3 ≤ cs.length ∧ cs.length ≤ 5 then return cs.drop 3 else failure

/-- Three quotes, and a line break that does not belong to the text. -/
def openingQuotes (isQuote : Char → Bool) : Scan Unit := do
  let _ ← Scan.oneOf isQuote
  let _ ← Scan.oneOf isQuote
  let _ ← Scan.oneOf isQuote
  lineBreak <|> return

/-- A text on several lines. -/
def multiline (isQuote : Char → Bool) (piece : Scan (List Char)) : Scan String := do
  openingQuotes isQuote
  let pieces ← Scan.many (piece <|> breakChars <|> fewQuotes isQuote)
  return String.ofList (pieces.flatten ++ (← closingQuotes isQuote))

/-- A text on several lines between double quotes. -/
def multilineQuoted : Scan String := multiline isDoubleQuote <|
  Scan.span1 isPlainQuoted <|> joinedLines <|> (do return [← Scan.escaped])

/-- A text on several lines between single quotes. -/
def multilineLiteral : Scan String := multiline isSingleQuote (Scan.span1 isLiteralChar)

/-- Whether a text begins with three quotes. -/
def isTripled (isQuote : Char → Bool) (cs : List Char) : Bool := 3 ≤ (cs.takeWhile isQuote).length

/-- A string. -/
def string : Scan String := do
  let cs ← get
  if isTripled isDoubleQuote cs then multilineQuoted
  else if isTripled isSingleQuote cs then multilineLiteral
  else Scan.quoted <|> literal

end RegistryPublisher.Toml
