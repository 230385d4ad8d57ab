/-!
# Ranges of characters

- `inRanges` looks a character up in a table of closed ranges of code points.
-/

namespace RegistryPublisher.Text

/-- Whether a code point lies in one of the ranges. -/
def inRanges (table : List (Nat × Nat)) (n : Nat) : Bool := table.any fun r => r.1 ≤ n && n ≤ r.2

end RegistryPublisher.Text
