import RegistryPublisher.Text.Unprintable

/-!
# Quoted text

- `quoted` shows a string between double quotes; quotes, backslashes and line controls are escaped by a letter, what
  cannot be seen by its number (`quotedChar_of_visible`).
-/

namespace RegistryPublisher.Text

/-- A number in lower-case hexadecimal. -/
def hex (n : Nat) : String := String.ofList (Nat.toDigits 16 n)

/-- Whether a character is shown as it is. -/
def isVisible (c : Char) : Bool := 0x20 ≤ c.toNat && c.toNat != 0x7f && !inRanges unprintable c.toNat

/-- One character of a quoted text. -/
def quotedChar (c : Char) : String :=
  if c.toNat = 0x22 then "\\\""
  else if c.toNat = 0x5c then "\\\\"
  else if c.toNat = 0x0a then "\\n"
  else if c.toNat = 0x0d then "\\r"
  else if c.toNat = 0x09 then "\\t"
  else if c.toNat = 0 then "\\0"
  else if isVisible c then c.toString
  else "\\u\x7b" ++ hex c.toNat ++ "\x7d"

/-- A string between double quotes. -/
def quoted (s : String) : String := "\"" ++ String.join (s.toList.map quotedChar) ++ "\""

/-- A visible character other than a quote or a backslash stands for itself. -/
theorem quotedChar_of_visible {c : Char} (h : isVisible c = true) (hq : c.toNat ≠ 0x22) (hb : c.toNat ≠ 0x5c) :
    quotedChar c = c.toString := by
  have h20 : 0x20 ≤ c.toNat := by simp only [isVisible, Bool.and_eq_true, decide_eq_true_eq] at h; exact h.1.1
  have h1 : c.toNat ≠ 0x0a := by omega
  have h2 : c.toNat ≠ 0x0d := by omega
  have h3 : c.toNat ≠ 0x09 := by omega
  have h4 : c.toNat ≠ 0 := by omega
  simp [quotedChar, hq, hb, h1, h2, h3, h4, h]

end RegistryPublisher.Text
