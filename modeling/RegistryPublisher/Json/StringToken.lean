import RegistryPublisher.Json.Reader

/-!
# String tokens

- `stringBytes` reads a string after its opening quote, with escapes replaced by what they stand for;
- `readString` also requires that the bytes are UTF-8;
- `skipString` passes a string whose value is not wanted: it looks at controls and at the form of escapes only.
-/

namespace RegistryPublisher.Json

/-- The value of a hexadecimal digit. -/
def hexValue? (b : UInt8) : Option Nat :=
  if isDigit b then some (b.toNat - 0x30)
  else if 0x61 ≤ b && b ≤ 0x66 then some (b.toNat - 0x57)
  else if 0x41 ≤ b && b ≤ 0x46 then some (b.toNat - 0x37)
  else none

/-- The number of four hexadecimal digits. -/
def hexUnit? (a b c d : UInt8) : Option Nat := do
  return (← hexValue? a) * 4096 + (← hexValue? b) * 256 + (← hexValue? c) * 16 + (← hexValue? d)

/-- What a one-letter escape stands for. -/
def letterEscape? (b : UInt8) : Option UInt8 :=
  if b = 0x22 || b = 0x5c || b = 0x2f then some b
  else if b = 0x62 then some 0x08
  else if b = 0x66 then some 0x0c
  else if b = 0x6e then some 0x0a
  else if b = 0x72 then some 0x0d
  else if b = 0x74 then some 0x09
  else none

/-- The first half of a pair of units. -/
def isHighUnit (n : Nat) : Bool := 0xd800 ≤ n && n ≤ 0xdbff

/-- The second half of a pair of units. -/
def isLowUnit (n : Nat) : Bool := 0xdc00 ≤ n && n ≤ 0xdfff

/-- The character of a pair of units. -/
def joinUnits (high low : Nat) : Char := Char.ofNat ((high - 0xd800) * 0x400 + (low - 0xdc00) + 0x10000)

/-- Puts bytes in front of a string that was read. -/
def prepend (bs : Bytes) : Except Fault (Bytes × Bytes) → Except Fault (Bytes × Bytes)
  | .ok (cs, rest) => .ok (bs ++ cs, rest)
  | .error f => .error f

/-- The bytes of a string after its opening quote, and what follows its closing quote. -/
def stringBytes : Reader Bytes
  | [] => stop .endInString []
  | c :: r =>
    if c = 0x22 then .ok ([], r)
    else if c = 0x5c then
      match r with
      | [] => stop .endInString []
      | e :: r₁ =>
        match letterEscape? e with
        | some b => prepend [b] (stringBytes r₁)
        | none =>
          if e = 0x75 then
            match r₁ with
            | h₁ :: h₂ :: h₃ :: h₄ :: r₂ =>
              match hexUnit? h₁ h₂ h₃ h₄ with
              | none => stop .invalidEscape r₂
              | some n =>
                if isLowUnit n then stop .loneSurrogate r₂
                else if isHighUnit n then
                  match r₂ with
                  | [] => stop .endInString []
                  | s :: r₃ =>
                    if s = 0x5c then
                      match r₃ with
                      | [] => stop .endInString []
                      | u :: r₄ =>
                        if u = 0x75 then
                          match r₄ with
                          | l₁ :: l₂ :: l₃ :: l₄ :: r₅ =>
                            match hexUnit? l₁ l₂ l₃ l₄ with
                            | none => stop .invalidEscape r₅
                            | some m =>
                              if isLowUnit m then prepend (String.utf8EncodeChar (joinUnits n m)) (stringBytes r₅)
                              else stop .loneSurrogate r₅
                          | _ => stop .endInString []
                        else stop .unexpectedEndOfEscape r₄
                    else stop .unexpectedEndOfEscape r₃
                else prepend (String.utf8EncodeChar (Char.ofNat n)) (stringBytes r₂)
            | _ => stop .endInString []
          else stop .invalidEscape r₁
    else if c < 0x20 then stop .controlCharacter r
    else prepend [c] (stringBytes r)

/-- A string after its opening quote. Bytes that are not UTF-8 are reported when the string has ended, as far before
that place as there are bytes after the well-formed beginning. -/
def readString : Reader String := fun bs =>
  match stringBytes bs with
  | .error f => .error f
  | .ok (cs, rest) =>
    match Utf8.decode? cs with
    | some s => .ok (s, rest)
    | none => .error ⟨.invalidCodePoint, rest.length + (cs.length - Utf8.validLength cs)⟩

/-- Passes a string after its opening quote. -/
def skipString : Bytes → Except Fault Bytes
  | [] => stop .endInString []
  | c :: r =>
    if c = 0x22 then .ok r
    else if c = 0x5c then
      match r with
      | [] => stop .endInString []
      | e :: r₁ =>
        if (letterEscape? e).isSome then skipString r₁
        else if e = 0x75 then
          match r₁ with
          | h₁ :: h₂ :: h₃ :: h₄ :: r₂ =>
            if (hexUnit? h₁ h₂ h₃ h₄).isSome then skipString r₂ else stop .invalidEscape r₂
          | _ => stop .endInString []
        else stop .invalidEscape r₁
    else if c < 0x20 then stop .controlCharacter (c :: r)
    else skipString r

end RegistryPublisher.Json
