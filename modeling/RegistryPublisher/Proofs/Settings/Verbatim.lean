import RegistryPublisher.Proofs.Text.Scan
import RegistryPublisher.Proofs.Text.Trim
import RegistryPublisher.Settings.Variables

/-!
# Values that are their texts

- `Bare s`: the text `s` is a word of the short notation: it has no brackets, commas, blanks at the ends and quotes at the
  beginning, does not begin with a boolean and is no number;
- `value_eq_string_iff`: **the value of a variable is its text** exactly when the text is bare or has no value in the
  short notation.
-/

namespace RegistryPublisher.Settings.Variables

open RegistryPublisher.Text

/-- A text that is read as a number. -/
def Numeric (cs : List Char) : Prop :=
  (cs.contains '.' = true ∧ (Extended.ofText? cs).isSome = true) ∨ (unsigned? cs).isSome = true
    ∨ (negative? cs).isSome = true

/-- A word of the short notation that is no boolean and no number. -/
structure Bare (s : String) : Prop where
  /-- There are no brackets and commas. -/
  scalar : ∀ c ∈ s.toList, isScalarChar c = true
  tidy : Tidy s
  /-- There is no quote at the beginning. -/
  unquoted : ∀ c ∈ s.toList.head?, c.toNat ≠ 0x22 ∧ c.toNat ≠ 0x27
  notTrue : ¬ "true".toList <+: s.toList
  notFalse : ¬ "false".toList <+: s.toList
  notNumeric : ¬ Numeric s.toList

/-- A text that is its own value: a word, or a text that has no value in the short notation. -/
def Verbatim (s : String) : Prop := Bare s ∨ (valueFrom (s.length + 1)).all s = none

theorem scalar_eq_string_iff {cs : List Char} {s : String} :
    Variables.scalar cs = .string s ↔ String.ofList cs = s ∧ ¬ Numeric cs := by
  unfold Variables.scalar Numeric
  cases hpoint : cs.contains '.' <;> cases Extended.ofText? cs <;> cases unsigned? cs <;> cases negative? cs <;> simp

/-! ## Parts of the short notation -/

theorem skip_run (p : Char → Bool) (cs : List Char) : (Scan.skip p).run cs = some ((), cs.dropWhile p) := rfl

theorem isBlank_of_isSpace {c : Char} (h : isSpace c = true) : isBlank c = true := by
  simp only [isSpace, Bool.or_eq_true, decide_eq_true_eq] at h
  rcases h with (((rfl | rfl) | rfl) | rfl) | h
  iterate 4 decide
  · rw [isBlank, h]
    decide

/-- A tidy text has no blanks to pass over. -/
theorem dropWhile_isSpace {s : String} (h : Tidy s) : s.toList.dropWhile isSpace = s.toList := by
  rw [List.dropWhile_eq_self_iff]
  intro hl hc
  have hhead := h.1 s.toList[0] (List.head?_eq_getElem? ▸ List.getElem?_eq_getElem hl)
  exact absurd (hhead.symm.trans (isBlank_of_isSpace hc)) (by decide)

/-- What a boolean at the beginning gives, whatever follows it. -/
theorem word_run_of_prefix {w : String} {b : Bool} {cs : List Char} (h : w.toList <+: cs) :
    (do
      Scan.word w
      return Value.bool b : Scan Value).run cs = some (.bool b, cs.drop w.toList.length) := by
  rw [StateT.run_bind, Scan.word, Scan.chars_run, if_pos h]
  rfl

theorem word_run_of_not_prefix {w : String} {b : Bool} {cs : List Char} (h : ¬ w.toList <+: cs) :
    (do
      Scan.word w
      return Value.bool b : Scan Value).run cs = none := by
  rw [StateT.run_bind, Scan.word, Scan.chars_run, if_neg h]
  rfl

/-- A value with the blanks around it: a boolean, if the text begins with one, else what its first character tells. -/
theorem valueFrom_run (depth : Nat) (cs : List Char) : (valueFrom (depth + 1)).run cs =
    ((if "true".toList <+: cs.dropWhile isSpace then some (Value.bool true, (cs.dropWhile isSpace).drop 4)
      else if "false".toList <+: cs.dropWhile isSpace then some (Value.bool false, (cs.dropWhile isSpace).drop 5)
      else (bracketed (valueFrom depth) (cs.dropWhile isSpace).head?).run (cs.dropWhile isSpace)).map
        fun r => (r.1, r.2.dropWhile isSpace)) := by
  rw [valueFrom, StateT.run_bind, skip_run, Option.bind_eq_bind, Option.bind_some]
  dsimp only
  generalize cs.dropWhile isSpace = ds
  rw [StateT.run_bind, Scan.run_orElse, Scan.run_orElse]
  by_cases ht : "true".toList <+: ds
  · rw [if_pos ht, word_run_of_prefix ht]
    rfl
  · rw [if_neg ht, word_run_of_not_prefix ht, Option.none_or]
    by_cases hf : "false".toList <+: ds
    · rw [if_pos hf, word_run_of_prefix hf]
      rfl
    · rw [if_neg hf, word_run_of_not_prefix hf, Option.none_or]
      change Option.bind ((bracketed (valueFrom depth) ds.head?).run ds) _ = _
      cases (bracketed (valueFrom depth) ds.head?).run ds <;> rfl

/-- A text that begins with no bracket and no quote is a scalar up to the next bracket or comma. -/
theorem bracketed_scalar (cs : List Char) (value : Scan Value) {c : Option Char}
    (h : ∀ d ∈ c, d.toNat ≠ 0x7b ∧ d.toNat ≠ 0x5b ∧ d.toNat ≠ 0x22 ∧ d.toNat ≠ 0x27) : (bracketed value c).run cs =
      some (scalar (trim (String.ofList (cs.takeWhile isScalarChar))).toList, cs.dropWhile isScalarChar) := by
  cases c with
  | none => rfl
  | some d =>
    obtain ⟨h₁, h₂, h₃, h₄⟩ := h d rfl
    unfold bracketed
    split
    · next e => exact absurd (Option.some.inj e) h₁
    · next e => exact absurd (Option.some.inj e) h₂
    · next e => exact absurd (Option.some.inj e) h₃
    · next e => exact absurd (Option.some.inj e) h₄
    · rfl

/-- A character between single quotes is shorter than what is taken for it. -/
theorem single_takes {cs rest : List Char} {s : String} (h : single.run cs = some (.string s, rest)) :
    s.length + rest.length < cs.length := by
  obtain ⟨_, left₁, h₁, h⟩ := Scan.run_bind_eq_some.1 h
  obtain ⟨c, left₂, h₂, h⟩ := Scan.run_bind_eq_some.1 h
  obtain ⟨_, left₃, h₃, h⟩ := Scan.run_bind_eq_some.1 h
  cases h
  have hopen := Scan.oneOf_takes _ _ _ _ h₁
  have hchar := Scan.next_takes _ _ _ h₂
  have hclose := Scan.oneOf_takes _ _ _ _ h₃
  rw [Char.toString, String.length_singleton]
  omega

/-- Where the short notation gives a text, it is shorter than what is read, as one between quotes is, or it is a scalar
without quotes. -/
theorem bracketed_string {value : Scan Value} {cs rest : List Char} {s : String}
    (h : (bracketed value cs.head?).run cs = some (.string s, rest)) : s.length + rest.length < cs.length ∨
      (∀ c ∈ cs.head?, c.toNat ≠ 0x22 ∧ c.toNat ≠ 0x27)
        ∧ scalar (trim (String.ofList (cs.takeWhile isScalarChar))).toList = .string s
        ∧ rest = cs.dropWhile isScalarChar := by
  have hwhole := h
  unfold bracketed at h
  split at h
  case h_1 =>
    obtain ⟨_, _, -, h⟩ := Scan.run_bind_eq_some.1 h
    obtain ⟨_, _, -, h⟩ := Scan.run_bind_eq_some.1 h
    cases h
  case h_2 =>
    obtain ⟨_, _, -, h⟩ := Scan.run_bind_eq_some.1 h
    obtain ⟨_, _, -, h⟩ := Scan.run_bind_eq_some.1 h
    cases h
  case h_3 =>
    rw [map_eq_pure_bind] at h
    obtain ⟨t, left, hquoted, h⟩ := Scan.run_bind_eq_some.1 h
    cases h
    have hlength := Scan.quoted_takes hquoted
    exact Or.inl (by omega)
  case h_4 => exact Or.inl (single_takes h)
  case h_5 hbrace hbracket hquote hsingle =>
    have hne : ∀ c ∈ cs.head?, ∀ n, (cs.head?.map Char.toNat = some n → False) → c.toNat ≠ n := by
      intro c hc n hn e
      exact hn (by rw [Option.mem_def.1 hc, Option.map_some, e])
    have hrun := bracketed_scalar cs value fun c hc =>
      ⟨hne c hc _ hbrace, hne c hc _ hbracket, hne c hc _ hquote, hne c hc _ hsingle⟩
    rw [hrun] at hwhole
    obtain ⟨hscalar, hrest⟩ := Prod.mk.inj (Option.some.inj hwhole)
    exact Or.inr ⟨fun c hc => ⟨hne c hc _ hquote, hne c hc _ hsingle⟩, hscalar, hrest.symm⟩

/-! ## Values that are their texts -/

/-- What is left without blanks and the end is the whole text only when nothing is taken away. -/
theorem eq_of_trim_takeWhile {s : String}
    (h : trim (String.ofList ((s.toList.dropWhile isSpace).takeWhile isScalarChar)) = s) :
    Tidy s ∧ ∀ c ∈ s.toList, isScalarChar c = true := by
  obtain ⟨⟨a, b, hs, -, -⟩, htidy⟩ := h ▸ trimmed_trim _
  have hout : (s.toList.dropWhile isSpace).takeWhile isScalarChar = a.toList ++ s.toList ++ b.toList := by
    rw [← String.toList_append, ← String.toList_append, ← hs, String.toList_ofList]
  have hin : ((s.toList.dropWhile isSpace).takeWhile isScalarChar).Sublist s.toList :=
    (List.takeWhile_sublist _).trans (List.dropWhile_sublist _)
  have heq : (s.toList.dropWhile isSpace).takeWhile isScalarChar = s.toList :=
    hin.eq_of_length_le (hout ▸ (List.infix_append ..).length_le)
  exact ⟨htidy, fun c hc => List.all_eq_true.1 List.all_takeWhile c (heq.symm ▸ hc)⟩

/-- **A text is its own value** in the short notation exactly when it is bare. -/
theorem all_eq_string_iff {s : String} : (valueFrom (s.length + 1)).all s = some (.string s) ↔ Bare s := by
  rw [Scan.all_eq_some_iff, valueFrom_run]
  constructor
  · intro h
    obtain ⟨⟨v, rest⟩, hrun, he⟩ := Option.map_eq_some_iff.1 h
    obtain ⟨rfl, hrest⟩ := Prod.mk.inj he
    split at hrun
    · cases hrun
    split at hrun
    · cases hrun
    next htrue hfalse =>
    have hlength : (s.toList.dropWhile isSpace).length ≤ s.length := List.length_dropWhile_le ..
    rcases bracketed_string hrun with hshort | ⟨hquotes, hscalar, hrest⟩
    · omega
    · obtain ⟨hs, hnumeric⟩ := scalar_eq_string_iff.1 hscalar
      rw [String.ofList_toList] at hs
      obtain ⟨htidy, hchars⟩ := eq_of_trim_takeWhile hs
      rw [dropWhile_isSpace htidy] at hquotes htrue hfalse
      rw [hs] at hnumeric
      exact ⟨hchars, htidy, hquotes, htrue, hfalse, hnumeric⟩
  · intro h
    have htake : s.toList.takeWhile isScalarChar = s.toList := List.takeWhile_eq_self_iff.2 h.scalar
    have hdrop : s.toList.dropWhile isScalarChar = [] := List.dropWhile_eq_nil_iff.2 h.scalar
    have hhead : ∀ c ∈ s.toList.head?, c.toNat ≠ 0x7b ∧ c.toNat ≠ 0x5b ∧ c.toNat ≠ 0x22 ∧ c.toNat ≠ 0x27 := by
      intro c hc
      have hother : ∀ n, isScalarChar (Char.ofNat n) = false → c.toNat ≠ n := by
        rintro _ hbracket rfl
        rw [Char.ofNat_toNat, h.scalar c (List.mem_of_head? hc)] at hbracket
        cases hbracket
      exact ⟨hother _ (by decide), hother _ (by decide), h.unquoted c hc⟩
    rw [dropWhile_isSpace h.tidy, if_neg h.notTrue, if_neg h.notFalse, bracketed_scalar _ _ hhead, htake, hdrop,
      String.ofList_toList, ← h.tidy.trimmed.eq_trim,
      scalar_eq_string_iff.2 ⟨String.ofList_toList, h.notNumeric⟩]
    rfl

/-- **The value of a variable is its text** exactly when the text is bare, or has no value in the short notation. -/
theorem value_eq_string_iff {s : String} : value s = .string s ↔ Verbatim s := by
  rw [value, Verbatim, ← all_eq_string_iff]
  cases h : (valueFrom (s.length + 1)).all s with
  | none => exact ⟨fun _ => Or.inr rfl, fun _ => rfl⟩
  | some v => exact ⟨fun hv => Or.inl (congrArg some hv), fun hv => Option.some.inj (hv.resolve_right nofun)⟩

end RegistryPublisher.Settings.Variables
