import RegistryPublisher.Text.Utf8

/-!
# Decimal digits

- `digits` writes a natural number with the fewest decimal digits, `ofDigits` reads digits back
  (`ofDigits_digits`);
- `digits_length_pos`: every number has a digit.
-/

namespace RegistryPublisher.Number

/-- The decimal digits of a number, the most significant first; zero has one digit. -/
def digits (n : Nat) : List Nat := if n < 10 then [n] else digits (n / 10) ++ [n % 10]

/-- The number that decimal digits denote. -/
def ofDigits (ds : List Nat) : Nat := ds.foldl (fun n d => n * 10 + d) 0

theorem ofDigits_append_singleton (ds : List Nat) (d : Nat) : ofDigits (ds ++ [d]) = ofDigits ds * 10 + d := by
  simp [ofDigits]

/-- Digits read back as the number they were written for. -/
theorem ofDigits_digits (n : Nat) : ofDigits (digits n) = n := by
  fun_induction digits n with
  | case1 n h => simp [ofDigits]
  | case2 n h ih => rw [ofDigits_append_singleton, ih]; omega

theorem digits_length_pos (n : Nat) : 0 < (digits n).length := by
  fun_induction digits n <;> simp

/-- The byte of a decimal digit. -/
def digitByte (d : Nat) : UInt8 := UInt8.ofNat (0x30 + d)

/-- The bytes of a number in decimal. -/
def decimal (n : Nat) : Bytes := (digits n).map digitByte

end RegistryPublisher.Number
