import RegistryPublisher.Json.Fault

/-!
# Readers

A reader takes the bytes that are left and gives a value with the bytes after it, or the fault that stops it.

- `stop` and `stopAt` place a fault before or on the next byte;
- `skipBlanks` passes the white space between tokens, `word` a fixed spelling;
- `decode` runs a reader on a whole text (`decode_eq_ok_iff`).
-/

namespace RegistryPublisher.Json

/-- Takes the bytes that are left; gives a value with the bytes after it, or a fault. -/
abbrev Reader (α : Type) := Bytes → Except Fault (α × Bytes)

/-- A fault after everything that was read. -/
def stop {α : Type} (c : Cause) (rest : Bytes) : Except Fault α := .error ⟨c, rest.length⟩

/-- A fault that counts the next byte in; at the end there is none to count. -/
def stopAt {α : Type} (c : Cause) (rest : Bytes) : Except Fault α := .error ⟨c, rest.length - 1⟩

/-- The white space of JSON: space, line feed, tab and carriage return. -/
def isSpace (b : UInt8) : Bool := b == 0x20 || b == 0x0a || b == 0x09 || b == 0x0d

/-- The bytes from the next token on. -/
def skipBlanks (bs : Bytes) : Bytes := bs.dropWhile isSpace

/-- A decimal digit. -/
def isDigit (b : UInt8) : Bool := 0x30 ≤ b && b ≤ 0x39

/-- Passes the given spelling. -/
def word : Bytes → Bytes → Except Fault Bytes
  | [], bs => .ok bs
  | _ :: _, [] => stop .endInValue []
  | w :: ws, b :: bs => if b = w then word ws bs else stop .expectedIdent bs

/-- What a reader makes of a whole text: nothing but white space may follow the value. -/
def decode {α : Type} (read : Reader α) (text : Bytes) : Except Error α :=
  match read text with
  | .error f => .error (f.locate text)
  | .ok (v, rest) =>
    match skipBlanks rest with
    | [] => .ok v
    | _ :: bs => .error ((⟨.trailingCharacters, bs.length⟩ : Fault).locate text)

/-! ## Laws -/

theorem word_append (w rest : Bytes) : word w (w ++ rest) = .ok rest := by
  induction w with
  | nil => rfl
  | cons b w ih => simp [word, ih]

/-- A text is accepted when its reader accepts it and only white space is left. -/
theorem decode_eq_ok_iff {α : Type} {read : Reader α} {text : Bytes} {v : α} :
    decode read text = .ok v ↔ ∃ rest, read text = .ok (v, rest) ∧ skipBlanks rest = [] := by
  unfold decode
  split
  · simp_all
  · next v' rest h =>
    split
    · next h' =>
      simp only [h, Except.ok.injEq, Prod.mk.injEq]
      exact ⟨fun e => ⟨rest, ⟨e, rfl⟩, h'⟩, fun ⟨_, e, _⟩ => e.1⟩
    · next h' => simp_all

end RegistryPublisher.Json
