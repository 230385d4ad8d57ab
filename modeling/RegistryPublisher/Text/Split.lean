/-!
# Splitting text

- `splitAt sep` cuts a text at every separator; `join_splitChars` puts the parts together again;
- `splitAt_eq_singleton`: a text without a separator is its only part.
-/

namespace RegistryPublisher.Text

/-- The parts of a list of characters between separators. -/
def splitChars (sep : Char) : List Char → List (List Char)
  | [] => [[]]
  | c :: cs =>
    if c = sep then [] :: splitChars sep cs
    else match splitChars sep cs with
      | [] => [[c]]
      | w :: ws => (c :: w) :: ws

/-- The parts of a text between separators; a text without one is its only part. -/
def splitAt (sep : Char) (s : String) : List String := (splitChars sep s.toList).map String.ofList

theorem splitChars_ne_nil (sep : Char) (cs : List Char) : splitChars sep cs ≠ [] := by
  cases cs with
  | nil => simp [splitChars]
  | cons c cs =>
    unfold splitChars
    split
    · simp
    · split <;> simp

theorem splitAt_eq_singleton {sep : Char} {s : String} (h : sep ∉ s.toList) : splitAt sep s = [s] := by
  have hchars : ∀ cs : List Char, sep ∉ cs → splitChars sep cs = [cs] := by
    intro cs hcs
    induction cs with
    | nil => rfl
    | cons c cs ih =>
      obtain ⟨hne, hrest⟩ := List.ne_and_not_mem_of_not_mem_cons hcs
      rw [splitChars, if_neg (Ne.symm hne), ih hrest]
  rw [splitAt, hchars _ h, List.map_singleton, String.ofList_toList]

/-- Nothing is lost: with separators between them the parts are the text. -/
theorem join_splitChars (sep : Char) (cs : List Char) : [sep].intercalate (splitChars sep cs) = cs := by
  induction cs with
  | nil => simp [splitChars, List.intercalate]
  | cons c cs ih =>
    unfold splitChars
    have hne := splitChars_ne_nil sep cs
    split
    · next h =>
      cases hs : splitChars sep cs with
      | nil => exact absurd hs hne
      | cons w ws => rw [hs] at ih; simp [List.intercalate, List.intersperse] at ih ⊢; exact ⟨h.symm, ih⟩
    · split
      · next hs => exact absurd hs hne
      · next w ws hs =>
        rw [hs] at ih
        cases ws with
        | nil => simpa [List.intercalate, List.intersperse] using ih
        | cons v vs => simpa [List.intercalate, List.intersperse] using ih

end RegistryPublisher.Text
