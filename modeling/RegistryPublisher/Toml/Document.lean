import RegistryPublisher.Text.Utf8
import RegistryPublisher.Toml.Numbers
import RegistryPublisher.Toml.Table

/-!
# TOML documents

- `Toml.value` reads a value, with fewer than `maxDepth` brackets around anything in it;
- `Toml.decode?` reads a document as a table.
-/

namespace RegistryPublisher.Toml

open RegistryPublisher.Text
open RegistryPublisher.Settings (Value)

/-! ## Space between tokens -/

/-- A character that a comment may hold. -/
def isCommentChar (c : Char) : Bool := c = '\t' || (0x20 ≤ c.toNat && c.toNat != 0x7f)

/-- A comment. -/
def comment : Scan Unit := do
  Scan.char '#'
  Scan.skip isCommentChar

/-- Blanks inside a line. -/
def blanks : Scan Unit := Scan.skip isBlank

/-- Blanks, line breaks and comments. -/
def space : Scan Unit := do
  let _ ← Scan.many (lineBreak <|> comment <|> do
    let _ ← Scan.span1 isBlank)

/-- The end of a line, which may have a comment. -/
def lineEnd : Scan Unit := do
  blanks
  comment <|> return
  lineBreak <|> Scan.atEnd

/-! ## Keys -/

/-- The number of brackets that may not be reached, and of parts that a key may not have. -/
def maxDepth : Nat := 80

/-- A character of a key without quotes. -/
def isKeyChar (c : Char) : Bool := c.isAlphanum || c = '_' || c = '-'

/-- A key, which may be in quotes. -/
def simpleKey : Scan String :=
  Scan.quoted <|> literal <|> do return String.ofList (← Scan.span1 isKeyChar)

/-- A part of a dotted key with the blanks around it. -/
def keyPart : Scan String := do
  blanks
  let k ← simpleKey
  blanks
  return k

/-- A dotted key. -/
def key : Scan (List String) := do
  let path ← Scan.separated keyPart (Scan.char '.')
  if path.length < maxDepth then return path else failure

/-! ## Values -/

/-- The items of an array after its bracket. -/
def array (value : Scan Value) : Scan Value := do
  let item : Scan Value := do
    space
    let v ← value
    space
    return v
  let items ← (do
    let vs ← Scan.separated item (Scan.char ',')
    Scan.char ',' <|> return
    return vs) <|> return []
  space
  Scan.char ']'
  return .array items

/-- A key and its value. -/
def pair (value : Scan Value) : Scan (List String × Value) := do
  let path ← key
  Scan.char '='
  blanks
  return (path, ← value)

/-- The members of a table on one line after its bracket. -/
def inlineTable (value : Scan Value) : Scan Value := do
  let member : Scan (List String × Value) := do
    let m ← pair value
    blanks
    return m
  let members ← Scan.separated member (Scan.char ',') <|> return []
  blanks
  let _ ← Scan.oneOf fun c => c.toNat = 0x7d
  match members.foldlM (fun t m => Table.assign m.1 m.2 t) Table.empty with
  | some t => return t.toValue
  | none => failure

/-- A value without brackets. -/
def plainValue : Scan Value :=
  (.string <$> string)
    <|> (do
      Scan.word "true"
      return .bool true)
    <|> (do
      Scan.word "false"
      return .bool false)
    <|> number

/-- A value with at most `depth` brackets around anything in it. -/
def valueFrom : Nat → Scan Value
  | 0 => plainValue
  | depth + 1 => do
    match (← Scan.peek).map Char.toNat with
    | some 0x5b => do
      let _ ← Scan.next
      array (valueFrom depth)
    | some 0x7b => do
      let _ ← Scan.next
      inlineTable (valueFrom depth)
    | _ => plainValue

/-- A value. -/
def value : Scan Value := valueFrom (maxDepth - 1)

/-! ## Lines -/

/-- What a line of a document does. -/
inductive Line where
  | nothing
  | assign (path : List String) (v : Value)
  | define (path : List String)
  | append (path : List String)

/-- A header after its bracket. -/
def header : Scan Line := do
  let doubled ← (do
    Scan.char '['
    return true) <|> return false
  let path ← key
  Scan.char ']'
  if doubled then
    Scan.char ']'
    return .append path
  else return .define path

/-- A line of a document with its end; it takes more than the blanks at its beginning. -/
def line : Scan Line := do
  blanks
  match ← Scan.peek with
  | none => failure
  | some '\n' | some '\r' => do
    lineBreak
    return .nothing
  | some '#' => do
    lineEnd
    return .nothing
  | some '[' => do
    let _ ← Scan.next
    let h ← header
    lineEnd
    return h
  | some _ => do
    let (path, v) ← pair value
    lineEnd
    return .assign path v

/-- A document that is being read, and the header that its next keys stand under. -/
structure Document where
  root : Table
  header : List String

namespace Document

/-- Does what a line says. -/
def apply (d : Document) : Line → Option Document
  | .nothing => some d
  | .assign path v => do return { d with root := ← d.root.assignUnder d.header path v }
  | .define path => do return ⟨← d.root.define path, path⟩
  | .append path => do return ⟨← d.root.append path, path⟩

end Document

/-- A whole document. -/
def document : Scan Value := do
  let lines ← Scan.many line
  blanks
  match lines.foldlM Document.apply ⟨.empty, []⟩ with
  | some d => return d.root.toValue
  | none => failure

/-- A text without a byte order mark. -/
def withoutMark (s : String) : String :=
  match s.toList with
  | c :: cs => if c.toNat = 0xfeff then String.ofList cs else s
  | [] => s

/-- The table of a file; none when it is no TOML document. -/
def decode? (content : Bytes) : Option Value := do
  let s ← Utf8.decode? content
  document.all (withoutMark s)

end RegistryPublisher.Toml
