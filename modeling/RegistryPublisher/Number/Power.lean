/-!
# Powers of two and ten

- `pow2` and `pow10` are the two powers that number formats are made of (`pow2_succ`, `pow2_pos`).
-/

namespace RegistryPublisher.Number

/-- A power of two. -/
def pow2 (n : Nat) : Nat := Nat.pow 2 n

/-- A power of ten. -/
def pow10 (n : Nat) : Nat := Nat.pow 10 n

theorem pow2_succ (n : Nat) : pow2 (n + 1) = pow2 n * 2 := rfl

theorem pow2_pos (n : Nat) : 0 < pow2 n := Nat.pow_pos (by decide)

end RegistryPublisher.Number
