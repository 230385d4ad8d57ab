import RegistryPublisher.Text.Quoted
import RegistryPublisher.Text.Utf8

/-!
# Why a JSON text is refused

- `Json.Cause` lists the reasons, `Cause.message` words them and `Cause.category` sorts them;
- `Json.Fault` is a reason with a place, counted in bytes not yet read, and `Fault.locate` turns the place into the line
  and column of a `Json.Error`.
-/

namespace RegistryPublisher.Json

/-- What stands where another shape is wanted, in the words of a message. -/
inductive Found where
  | null
  | boolean (b : Bool)
  | integer (i : Int)
  | float (written : String)
  | string (s : String)
  | sequence
  | map
  deriving DecidableEq, Repr

/-- A reason to refuse a text. -/
inductive Cause where
  | endInValue
  | endInList
  | endInObject
  | endInString
  | expectedValue
  | expectedIdent
  | expectedColon
  | expectedCommaOrBrace
  | expectedCommaOrBracket
  | keyMustBeString
  | trailingComma
  | trailingCharacters
  | invalidNumber
  | numberOutOfRange
  | controlCharacter
  | invalidEscape
  | loneSurrogate
  | unexpectedEndOfEscape
  | invalidCodePoint
  | tooDeep
  | wrongType (found : Found) (wanted : String)
  | missingField (name : String)
  | duplicateField (name : String)
  | wrongLength (length : Nat) (record : String) (fields : Nat)
  deriving DecidableEq, Repr

/-- The three sorts of reasons. -/
inductive Category where
  | syntactic
  | data
  | eof
  deriving DecidableEq, Repr

/-- `ticked "x"` is the text between back quotes. -/
def ticked (s : String) : String := "\x60" ++ s ++ "\x60"

/-- What was found, in words. -/
def Found.describe : Found → String
  | null => "null"
  | boolean b => "boolean " ++ ticked (if b then "true" else "false")
  | integer i => "integer " ++ ticked (toString i)
  | float w => "floating point " ++ ticked w
  | string s => "string " ++ Text.quoted s
  | sequence => "sequence"
  | map => "map"

namespace Cause

/-- The reason in words. -/
def message : Cause → String
  | endInValue => "EOF while parsing a value"
  | endInList => "EOF while parsing a list"
  | endInObject => "EOF while parsing an object"
  | endInString => "EOF while parsing a string"
  | expectedValue => "expected value"
  | expectedIdent => "expected ident"
  | expectedColon => "expected " ++ ticked ":"
  | expectedCommaOrBrace => "expected " ++ ticked "," ++ " or " ++ ticked "\x7d"
  | expectedCommaOrBracket => "expected " ++ ticked "," ++ " or " ++ ticked "]"
  | keyMustBeString => "key must be a string"
  | trailingComma => "trailing comma"
  | trailingCharacters => "trailing characters"
  | invalidNumber => "invalid number"
  | numberOutOfRange => "number out of range"
  | controlCharacter => "control character (\\u0000-\\u001F) found while parsing a string"
  | invalidEscape => "invalid escape"
  | loneSurrogate => "lone leading surrogate in hex escape"
  | unexpectedEndOfEscape => "unexpected end of hex escape"
  | invalidCodePoint => "invalid unicode code point"
  | tooDeep => "recursion limit exceeded"
  | wrongType found wanted => "invalid type: " ++ found.describe ++ ", expected " ++ wanted
  | missingField name => "missing field " ++ ticked name
  | duplicateField name => "duplicate field " ++ ticked name
  | wrongLength length record fields =>
    "invalid length " ++ toString length ++ ", expected struct " ++ record ++ " with " ++ toString fields ++ " elements"

/-- Whether the text ended too early, has the wrong shape, or is no JSON. -/
def category : Cause → Category
  | endInValue | endInList | endInObject | endInString => .eof
  | wrongType .. | missingField .. | duplicateField .. | wrongLength .. => .data
  | _ => .syntactic

end Cause

/-- A reason, and how many bytes of the text come after the place it is reported at. -/
structure Fault where
  cause : Cause
  unread : Nat
  deriving DecidableEq, Repr

/-- A reason with its line, counted from one, and the number of bytes before its place in that line. -/
structure Error where
  cause : Cause
  line : Nat
  column : Nat
  deriving DecidableEq, Repr

/-- The line and column after the given bytes. -/
def position (read : Bytes) : Nat × Nat :=
  (read.count 0x0a + 1, (read.reverse.takeWhile (· != 0x0a)).length)

/-- Places a fault in its text. -/
def Fault.locate (f : Fault) (text : Bytes) : Error :=
  let p := position (text.take (text.length - f.unread))
  ⟨f.cause, p.1, p.2⟩

/-- The message with its place. -/
def Error.message (e : Error) : String :=
  e.cause.message ++ " at line " ++ toString e.line ++ " column " ++ toString e.column

end RegistryPublisher.Json
