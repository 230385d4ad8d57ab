import RegistryPublisher.Text.Escaped

/-!
# What scans give

- `Scan.Yields x P`: every value that `x` gives has the property `P`;
- one law for each way to put scans together, from which the property of a grammar follows rule by rule;
- `Scan.Takes n x`: the scan `x` takes `n` characters at least, with the same laws; a text between quotes is shorter than
  what is taken for it (`quoted_takes`).
-/

namespace RegistryPublisher.Text.Scan

variable {α β : Type} {x y : Scan α} {P Q : α → Prop}

/-! ## Values -/

/-- Every value that the scan gives has the property. -/
def Yields (x : Scan α) (P : α → Prop) : Prop := ∀ cs a rest, x.run cs = some (a, rest) → P a

/-- Nothing is asked of the values. -/
theorem Yields.any (x : Scan α) : x.Yields fun _ => True := fun _ _ _ _ => trivial

theorem Yields.pure {a : α} (h : P a) : Yields (pure a) P := by
  intro cs b rest hx
  cases hx
  exact h

theorem Yields.failure : Yields (failure : Scan α) P := fun _ _ _ hx => nomatch hx

theorem Yields.bind {f : α → Scan β} {P : β → Prop} (hx : x.Yields Q) (hf : ∀ a, Q a → (f a).Yields P) :
    (x >>= f).Yields P := by
  intro cs b rest h
  rw [StateT.run_bind] at h
  obtain ⟨⟨a, left⟩, ha, hb⟩ := Option.bind_eq_some_iff.1 h
  exact hf a (hx cs a left ha) left b rest hb

/-- A step whose value does not matter. -/
theorem Yields.after {f : α → Scan β} {P : β → Prop} (hf : ∀ a, (f a).Yields P) : (x >>= f).Yields P :=
  (Yields.any x).bind fun a _ => hf a

theorem Yields.map {f : α → β} {P : β → Prop} (h : x.Yields fun a => P (f a)) : (f <$> x).Yields P := by
  rw [map_eq_pure_bind]
  exact h.bind fun a ha => .pure ha

theorem Yields.orElse (hx : x.Yields P) (hy : y.Yields P) : (x <|> y).Yields P := by
  intro cs a rest h
  change (x.run cs <|> y.run cs) = some (a, rest) at h
  cases he : x.run cs with
  | none =>
    rw [he] at h
    exact hy cs a rest h
  | some r =>
    rw [he] at h
    cases h
    exact hx cs a rest he

/-- Many values are given one after the other. -/
theorem Yields.many (h : x.Yields P) : x.many.Yields fun as => ∀ a ∈ as, P a := by
  have hfrom : ∀ fuel, (manyFrom x fuel).Yields fun as => ∀ a ∈ as, P a := by
    intro fuel
    induction fuel with
    | zero => exact .pure fun _ hm => nomatch hm
    | succ fuel ih =>
      refine .orElse (h.bind fun a ha => ih.bind fun as has => .pure ?_) (.pure fun _ hm => nomatch hm)
      exact List.forall_mem_cons.2 ⟨ha, has⟩
  exact fun cs => hfrom cs.length cs

theorem Yields.separated {separator : Scan β} (h : x.Yields P) :
    (x.separated separator).Yields fun as => ∀ a ∈ as, P a := by
  refine h.bind fun a ha => (Yields.many (.after fun _ => h)).bind fun as has => .pure ?_
  exact List.forall_mem_cons.2 ⟨ha, has⟩

/-- What a scan makes of a whole text is one of its values. -/
theorem Yields.all (h : x.Yields P) {s : String} {a : α} (hx : x.all s = some a) : P a := by
  have hwhole : Yields (do
      let a ← x
      atEnd
      return a) P := h.bind fun a ha => .after fun _ => .pure ha
  obtain ⟨⟨a, rest⟩, hrun, rfl⟩ := Option.map_eq_some_iff.1 hx
  exact hwhole _ a rest hrun

/-! ## Runs -/

section Runs

variable {f : α → Scan β} {cs rest : List Char}

theorem run_bind_eq_some {b : β} :
    (x >>= f).run cs = some (b, rest) ↔ ∃ a left, x.run cs = some (a, left) ∧ (f a).run left = some (b, rest) := by
  rw [StateT.run_bind]
  constructor
  · intro h
    obtain ⟨⟨a, left⟩, ha, hb⟩ := Option.bind_eq_some_iff.1 h
    exact ⟨a, left, ha, hb⟩
  · rintro ⟨a, left, ha, hb⟩
    exact Option.bind_eq_some_iff.2 ⟨(a, left), ha, hb⟩

theorem run_orElse : (x <|> y).run cs = (x.run cs).or (y.run cs) := by
  change (x.run cs <|> y.run cs) = _
  cases x.run cs <;> rfl

/-- A scan of a whole text leaves nothing. -/
theorem all_eq_some_iff {s : String} {a : α} : x.all s = some a ↔ x.run s.toList = some (a, []) := by
  constructor
  · intro h
    obtain ⟨⟨b, rest⟩, hrun, rfl⟩ := Option.map_eq_some_iff.1 h
    obtain ⟨c, left, hx, hrest⟩ := run_bind_eq_some.1 hrun
    obtain ⟨_, r, hend, hpure⟩ := run_bind_eq_some.1 hrest
    cases hpure
    cases left with
    | nil => exact hx
    | cons d ds => cases hend
  · intro h
    refine Option.map_eq_some_iff.2 ⟨(a, []), run_bind_eq_some.2 ⟨a, [], h, ?_⟩, rfl⟩
    exact run_bind_eq_some.2 ⟨(), [], rfl, rfl⟩

theorem char_run (p c : Char) (cs : List Char) : (char p).run (c :: cs) = if c = p then some ((), cs) else none := by
  by_cases h : c = p
  · subst h
    rw [if_pos rfl]
    refine run_bind_eq_some.2 ⟨c, cs, run_bind_eq_some.2 ⟨c, cs, rfl, ?_⟩, rfl⟩
    rw [if_pos (beq_self_eq_true c)]
    rfl
  · rw [if_neg h, Option.eq_none_iff_forall_ne_some]
    rintro ⟨_, rest⟩ hrun
    obtain ⟨_, _, hone, -⟩ := run_bind_eq_some.1 hrun
    obtain ⟨_, _, hnext, hone⟩ := run_bind_eq_some.1 hone
    cases hnext
    rw [if_neg fun e => h (beq_iff_eq.1 e)] at hone
    cases hone

/-- Given characters are taken exactly when the text begins with them. -/
theorem chars_run (ps : List Char) :
    ∀ cs, (chars ps).run cs = if ps <+: cs then some ((), cs.drop ps.length) else none := by
  induction ps with
  | nil => exact fun cs => (if_pos List.nil_prefix).symm
  | cons p ps ih =>
    intro cs
    rw [chars, StateT.run_bind]
    cases cs with
    | nil => rfl
    | cons c cs =>
      rw [char_run]
      by_cases hc : c = p
      · subst hc
        rw [if_pos rfl]
        simp only [List.cons_prefix_cons, true_and, List.length_cons, List.drop_succ_cons]
        exact ih cs
      · rw [if_neg hc, if_neg fun h => hc (List.cons_prefix_cons.1 h).1.symm]
        rfl

/-! ## How much is taken -/

/-- The scan takes `n` characters at least. -/
def Takes (n : Nat) (x : Scan α) : Prop := ∀ cs a rest, x.run cs = some (a, rest) → n + rest.length ≤ cs.length

theorem Takes.pure (a : α) : Takes 0 (pure a : Scan α) := by
  intro cs b rest h
  cases h
  exact Nat.le_of_eq (Nat.zero_add _)

theorem Takes.failure (n : Nat) : Takes n (failure : Scan α) := fun _ _ _ h => nomatch h

theorem Takes.bind {m n : Nat} (hx : Takes m x) (hf : ∀ a, Takes n (f a)) : Takes (m + n) (x >>= f) := by
  intro cs b rest h
  obtain ⟨a, left, ha, hb⟩ := run_bind_eq_some.1 h
  have hleft := hx cs a left ha
  have hrest := hf a left b rest hb
  omega

theorem Takes.orElse {n : Nat} (hx : Takes n x) (hy : Takes n y) : Takes n (x <|> y) := by
  intro cs a rest h
  rw [run_orElse] at h
  rcases Option.or_eq_some_iff.1 h with h | ⟨-, h⟩
  · exact hx cs a rest h
  · exact hy cs a rest h

theorem Takes.weaken {m n : Nat} (h : Takes n x) (hle : m ≤ n) : Takes m x := fun cs a rest hx =>
  Nat.le_trans (Nat.add_le_add_right hle _) (h cs a rest hx)

theorem next_takes : Takes 1 next := by
  intro cs c rest h
  cases cs with
  | nil => cases h
  | cons d cs =>
    cases h
    exact Nat.le_of_eq (Nat.add_comm ..)

theorem oneOf_takes (p : Char → Bool) : Takes 1 (oneOf p) := by
  refine next_takes.bind (n := 0) fun c => ?_
  split
  · exact .pure c
  · exact .failure 0

/-- Many values are no more than the characters taken for them. -/
theorem many_takes (h : Takes 1 x) {as : List α} (hx : x.many.run cs = some (as, rest)) :
    as.length + rest.length ≤ cs.length := by
  have hfrom : ∀ fuel cs as, (manyFrom x fuel).run cs = some (as, rest) → as.length + rest.length ≤ cs.length := by
    intro fuel
    induction fuel with
    | zero =>
      intro cs as hrun
      cases hrun
      exact Nat.le_of_eq (Nat.zero_add _)
    | succ fuel ih =>
      intro cs as hrun
      rw [manyFrom, run_orElse] at hrun
      rcases Option.or_eq_some_iff.1 hrun with hrun | ⟨-, hrun⟩
      · obtain ⟨a, left, ha, hrun⟩ := run_bind_eq_some.1 hrun
        obtain ⟨bs, _, hbs, hpure⟩ := run_bind_eq_some.1 hrun
        cases hpure
        have hleft := h cs a left ha
        have hrest := ih left bs hbs
        rw [List.length_cons]
        omega
      · cases hrun
        exact Nat.le_of_eq (Nat.zero_add _)
  exact hfrom cs.length cs as hx

theorem hexDigits_takes (n : Nat) : ∀ m, Takes 0 (hexDigits n m) := by
  induction n with
  | zero => exact fun m => .pure m
  | succ n ih =>
    intro m
    refine (next_takes.bind (n := 0) fun c => ?_).weaken (Nat.zero_le 1)
    split
    · exact ih _
    · exact .failure 0

theorem escape_takes : Takes 0 escape := by
  have hscalar : ∀ n, Takes 0 (scalar n) := by
    intro n
    unfold scalar
    split
    · exact .pure _
    · exact .failure 0
  refine (next_takes.bind (n := 0) fun c => ?_).weaken (Nat.zero_le 1)
  split
  · exact .pure _
  split
  · exact (hexDigits_takes 4 0).bind hscalar
  split
  · exact (hexDigits_takes 8 0).bind hscalar
  · exact .failure 0

/-- A text between quotes is shorter than what is taken for it, by the quotes at least. -/
theorem quoted_takes {s : String} (h : quoted.run cs = some (s, rest)) : s.length + 2 + rest.length ≤ cs.length := by
  have hquote : Takes 1 quote := (oneOf_takes _).bind fun _ => .pure ()
  have hitem : Takes 1 (escaped <|> oneOf isPlainQuoted) :=
    .orElse ((oneOf_takes _).bind fun _ => escape_takes) (oneOf_takes _)
  obtain ⟨_, left₁, h₁, h⟩ := run_bind_eq_some.1 h
  obtain ⟨as, left₂, h₂, h⟩ := run_bind_eq_some.1 h
  obtain ⟨_, left₃, h₃, h⟩ := run_bind_eq_some.1 h
  cases h
  have hopen := hquote _ _ _ h₁
  have hitems := many_takes hitem h₂
  have hclose := hquote _ _ _ h₃
  rw [String.length_ofList]
  omega

end Runs

end RegistryPublisher.Text.Scan
