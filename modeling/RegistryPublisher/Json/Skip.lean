import RegistryPublisher.Json.Document

/-!
# Values that are not wanted

- `skip` passes one value and looks at its form only: nesting has no limit, numbers are not evaluated, and strings need
  not be UTF-8.
-/

namespace RegistryPublisher.Json

/-- A value that is no array or object, from its first byte. -/
def skipScalar (c : UInt8) (r : Bytes) : Except Fault Bytes :=
  if c = 0x6e then word (Utf8.encode "ull") r
  else if c = 0x74 then word (Utf8.encode "rue") r
  else if c = 0x66 then word (Utf8.encode "alse") r
  else if c = 0x22 then skipString r
  else if startsNumber c then (readNumeral .invalidNumber (c :: r)).map Prod.snd
  else stopAt .expectedValue (c :: r)

/-- What comes next in a skipped array: after a comma a value has to come. -/
def nextSkippedItem (first : Bool) (bs : Bytes) : Except Fault Next :=
  match skipBlanks bs with
  | [] => stop .endInList []
  | c :: r =>
    if c = 0x5d then .ok (.close r)
    else if first then .ok (.more (c :: r))
    else if c = 0x2c then .ok (.more r)
    else stopAt .expectedCommaOrBracket (c :: r)

/-- The key of a skipped member with its colon. -/
def skipKey (bs : Bytes) : Except Fault Next :=
  match skipBlanks bs with
  | [] => stop .endInObject []
  | c :: r => if c = 0x22 then do return .more (← colon (← skipString r)) else stopAt .keyMustBeString (c :: r)

/-- What comes next in a skipped object: the key and its colon are passed. -/
def nextSkippedMember (first : Bool) (bs : Bytes) : Except Fault Next :=
  match skipBlanks bs with
  | [] => stop .endInObject []
  | c :: r =>
    if c = 0x7d then .ok (.close r)
    else if first then skipKey (c :: r)
    else if c = 0x2c then skipKey r
    else stopAt .expectedCommaOrBrace (c :: r)

mutual

/-- Passes one value in at most `fuel` steps. -/
def skipValue : Nat → Bytes → Except Fault Bytes
  | 0, bs => stop .endInValue bs
  | fuel + 1, bs =>
    match skipBlanks bs with
    | [] => stop .endInValue []
    | c :: r =>
      if c = 0x5b then skipRest nextSkippedItem fuel true r
      else if c = 0x7b then skipRest nextSkippedMember fuel true r
      else skipScalar c r

/-- Passes what is left between brackets, and the closing one. -/
def skipRest (next : Bool → Bytes → Except Fault Next) : Nat → Bool → Bytes → Except Fault Bytes
  | 0, _, bs => stop .endInValue bs
  | fuel + 1, first, bs => do
    match ← next first bs with
    | .close rest => return rest
    | .more rest => skipRest next fuel false (← skipValue fuel rest)

end

/-- Passes one value. Each step but the last passes a byte, or follows one that did. -/
def skip (bs : Bytes) : Except Fault Bytes := skipValue (2 * bs.length + 2) bs

end RegistryPublisher.Json
