/-!
# UTF-8

- `Utf8.encode` writes a string as bytes;
- `Utf8.pieces` reads bytes as characters and maximal ill-formed parts, from which come strict reading
  (`Utf8.decode?`), the length of the well-formed beginning (`Utf8.validLength`) and reading with replacement
  characters (`Utf8.lossy`).
-/

namespace RegistryPublisher

/-- A byte string. -/
abbrev Bytes := List UInt8

namespace Utf8

/-- The bytes of a string. -/
def encode (s : String) : Bytes := s.toList.flatMap String.utf8EncodeChar

/-! ## The shape of a character -/

/-- A continuation byte. -/
def isTail (b : UInt8) : Bool := 0x80 ≤ b && b ≤ 0xbf

/-- The first byte of a two-byte character. -/
def isLead2 (a : UInt8) : Bool := 0xc2 ≤ a && a ≤ 0xdf

/-- The first two bytes of a three-byte character: no overlong form and no surrogate. -/
def isLead3 (a b : UInt8) : Bool :=
  (a == 0xe0 && 0xa0 ≤ b && b ≤ 0xbf) || (a == 0xed && 0x80 ≤ b && b ≤ 0x9f)
    || (0xe1 ≤ a && a ≤ 0xef && a != 0xed && isTail b)

/-- The first two bytes of a four-byte character: no overlong form and nothing above U+10FFFF. -/
def isLead4 (a b : UInt8) : Bool :=
  (a == 0xf0 && 0x90 ≤ b && b ≤ 0xbf) || (a == 0xf4 && 0x80 ≤ b && b ≤ 0x8f)
    || (0xf1 ≤ a && a ≤ 0xf3 && isTail b)

/-- The character of two bytes. -/
def char2 (a b : UInt8) : Char := Char.ofNat ((a.toNat - 0xc0) * 64 + (b.toNat - 0x80))

/-- The character of three bytes. -/
def char3 (a b c : UInt8) : Char :=
  Char.ofNat ((a.toNat - 0xe0) * 4096 + (b.toNat - 0x80) * 64 + (c.toNat - 0x80))

/-- The character of four bytes. -/
def char4 (a b c d : UInt8) : Char :=
  Char.ofNat ((a.toNat - 0xf0) * 262144 + (b.toNat - 0x80) * 4096 + (c.toNat - 0x80) * 64 + (d.toNat - 0x80))

/-! ## Reading -/

/-- The characters of a byte string in order; `none` stands for one maximal ill-formed part, the longest run of bytes
that begins some character without completing it, or a single byte that begins none. -/
def pieces : Bytes → List (Option Char)
  | [] => []
  | a :: r =>
    if a < 0x80 then some (Char.ofNat a.toNat) :: pieces r
    else match r with
      | [] => [none]
      | b :: r₁ =>
        if isLead2 a && isTail b then some (char2 a b) :: pieces r₁
        else if isLead3 a b then
          match r₁ with
          | [] => [none]
          | c :: r₂ => if isTail c then some (char3 a b c) :: pieces r₂ else none :: pieces (c :: r₂)
        else if isLead4 a b then
          match r₁ with
          | [] => [none]
          | c :: r₂ =>
            if isTail c then
              match r₂ with
              | [] => [none]
              | d :: r₃ => if isTail d then some (char4 a b c d) :: pieces r₃ else none :: pieces (d :: r₃)
            else none :: pieces (c :: r₂)
        else none :: pieces (b :: r₁)

/-- The string of a well-formed byte string. -/
def decode? (bs : Bytes) : Option String := ((pieces bs).mapM id).map String.ofList

/-- How many bytes the well-formed beginning has. -/
def validLength (bs : Bytes) : Nat :=
  (((pieces bs).takeWhile Option.isSome).filterMap id).foldl (fun n c => n + c.utf8Size) 0

/-- The string of any byte string: U+FFFD stands for each maximal ill-formed part. -/
def lossy (bs : Bytes) : String := String.ofList ((pieces bs).map fun p => p.getD (Char.ofNat 0xfffd))

end Utf8

end RegistryPublisher
