import RegistryPublisher.Proofs.Json.Form

/-!
# Skipped values

- `exists_form_of_skip`: what is skipped in any number of steps has a form;
- `Spans.skipped`: what has a form is skipped, with two steps for each byte;
- `skip_eq_ok_iff`: so a value is skipped exactly when it has a form.
-/

namespace RegistryPublisher.Json

/-! ## Values -/

theorem skipScalar_eq (c : UInt8) (r : Bytes) : skipScalar c r = (Form.readScalar c r).map Prod.snd := by
  have hword : ∀ (w : Bytes) (f : Form),
      word w r = (do return (f, ← word w r) : Except Fault (Form × Bytes)).map Prod.snd := by
    intro w f
    cases word w r <;> rfl
  unfold skipScalar Form.readScalar
  split
  · exact hword ..
  split
  · exact hword ..
  split
  · exact hword ..
  split
  · rw [readToken]
    cases skipString r <;> rfl
  split
  · cases readNumeral .invalidNumber (c :: r) <;> rfl
  · rfl

theorem skipScalar_eq_ok_iff {c : UInt8} {r rest : Bytes} :
    skipScalar c r = .ok rest ↔ ∃ f, Form.readScalar c r = .ok (f, rest) := by
  rw [skipScalar_eq]
  cases Form.readScalar c r with
  | error e => exact ⟨nofun, nofun⟩
  | ok x =>
    constructor
    · intro h
      cases h
      exact ⟨x.1, rfl⟩
    · rintro ⟨_, h⟩
      cases h
      rfl

/-- A value begins with a byte that is no closing bracket. -/
theorem Spans.start {f : Form} {bs rest : Bytes} (h : Spans (.value f) bs rest) :
    ∃ c r, skipBlanks bs = c :: r ∧ c ≠ 0x5d := by
  cases h with
  | scalar start read =>
    refine ⟨_, _, start, ?_⟩
    rintro rfl
    cases read
  | array start => exact ⟨_, _, start, by decide⟩
  | object start => exact ⟨_, _, start, by decide⟩

/-- Blanks before a value do not matter. -/
theorem spans_skipBlanks {f : Form} {bs rest : Bytes} :
    Spans (.value f) (skipBlanks bs) rest ↔ Spans (.value f) bs rest := by
  have hidem := skipBlanks_skipBlanks bs
  constructor
  · intro h
    cases h with
    | scalar start read => exact .scalar (hidem ▸ start) read
    | array start items => exact .array (hidem ▸ start) items
    | object start members => exact .object (hidem ▸ start) members
  · intro h
    cases h with
    | scalar start read => exact .scalar (hidem.trans start) read
    | array start items => exact .array (hidem.trans start) items
    | object start members => exact .object (hidem.trans start) members

theorem skipValue_succ (fuel : Nat) {bs rest : Bytes} : skipValue (fuel + 1) bs = .ok rest ↔ ∃ c r,
    skipBlanks bs = c :: r ∧ ((c = 0x5b ∧ skipRest nextSkippedItem fuel true r = .ok rest) ∨
      (c = 0x7b ∧ skipRest nextSkippedMember fuel true r = .ok rest) ∨
      ∃ f, Form.readScalar c r = .ok (f, rest)) := by
  rw [skipValue]
  cases skipBlanks bs with
  | nil => exact ⟨nofun, nofun⟩
  | cons c r =>
    simp only [List.cons.injEq, ← skipScalar_eq_ok_iff]
    constructor
    · intro h
      refine ⟨c, r, ⟨rfl, rfl⟩, ?_⟩
      split at h
      · exact Or.inl ⟨‹_›, h⟩
      split at h
      · exact Or.inr (Or.inl ⟨‹_›, h⟩)
      · exact Or.inr (Or.inr h)
    · rintro ⟨_, _, ⟨rfl, rfl⟩, ⟨rfl, h⟩ | ⟨rfl, h⟩ | h⟩
      · exact h
      · exact h
      · have harray : c ≠ 0x5b := by rintro rfl; cases h
        have hobject : c ≠ 0x7b := by rintro rfl; cases h
        rw [if_neg harray, if_neg hobject]
        exact h

/-- Blanks do not matter either where a value is skipped, and it begins as a value does. -/
theorem skipValue_skipBlanks {fuel : Nat} {bs rest : Bytes} :
    skipValue fuel (skipBlanks bs) = .ok rest ↔ skipValue fuel bs = .ok rest := by
  cases fuel with
  | zero => exact ⟨nofun, nofun⟩
  | succ fuel => rw [skipValue_succ, skipValue_succ, skipBlanks_skipBlanks]

theorem skipValue_start {fuel : Nat} {bs rest : Bytes} (h : skipValue fuel bs = .ok rest) :
    ∃ c r, skipBlanks bs = c :: r ∧ c ≠ 0x5d := by
  cases fuel with
  | zero => cases h
  | succ fuel =>
    obtain ⟨c, r, start, ⟨rfl, -⟩ | ⟨rfl, -⟩ | ⟨f, h⟩⟩ := (skipValue_succ ..).1 h
    · exact ⟨_, _, start, by decide⟩
    · exact ⟨_, _, start, by decide⟩
    · refine ⟨_, _, start, ?_⟩
      rintro rfl
      cases h

/-! ## Items and members -/

theorem nextSkippedItem_close_iff {first : Bool} {bs rest : Bytes} :
    nextSkippedItem first bs = .ok (.close rest) ↔ skipBlanks bs = 0x5d :: rest := by
  unfold nextSkippedItem
  cases skipBlanks bs with
  | nil => exact ⟨nofun, nofun⟩
  | cons c r =>
    simp only [List.cons.injEq]
    constructor
    · intro h
      split at h
      · cases h
        exact ⟨‹_›, rfl⟩
      split at h
      · cases h
      · split at h <;> cases h
    · rintro ⟨rfl, rfl⟩
      rfl

/-- After a comma anything may be skipped, but what is skipped must begin as a value does, and then it is an item. -/
theorem nextSkippedItem_more_iff {P : Bytes → Prop} (hblanks : ∀ bs, P (skipBlanks bs) ↔ P bs)
    (hstart : ∀ bs, P bs → ∃ c r, skipBlanks bs = c :: r ∧ c ≠ 0x5d) {first : Bool} {bs : Bytes} :
    (∃ r, nextSkippedItem first bs = .ok (.more r) ∧ P r) ↔ ∃ r, nextItem first bs = .ok (.more r) ∧ P r := by
  unfold nextSkippedItem nextItem
  cases skipBlanks bs with
  | nil => exact ⟨nofun, nofun⟩
  | cons c r =>
    simp only
    by_cases hc : c = 0x5d
    · simp only [if_pos hc]
    simp only [if_neg hc]
    cases first with
    | true => exact Iff.rfl
    | false =>
      simp only [Bool.false_eq_true, if_false]
      split
      · constructor
        · rintro ⟨_, h, hp⟩
          cases h
          obtain ⟨d, r', start, hd⟩ := hstart _ hp
          rw [start]
          simp only [if_neg hd]
          exact ⟨_, rfl, start ▸ (hblanks r).2 hp⟩
        · rintro ⟨r₁, h, hp⟩
          split at h
          · cases h
          next d r' start =>
          split at h
          · cases h
          · cases h
            exact ⟨r, rfl, (hblanks r).1 (start.symm ▸ hp)⟩
      · exact ⟨nofun, nofun⟩

theorem nextSkippedMember_close_iff {first : Bool} {bs rest : Bytes} :
    nextSkippedMember first bs = .ok (.close rest) ↔ skipBlanks bs = 0x7d :: rest := by
  have hskip : ∀ r, skipKey r ≠ .ok (.close rest) := by
    intro r h
    unfold skipKey at h
    split at h
    · cases h
    split at h
    · obtain ⟨_, -, h⟩ := bind_eq_ok_iff.1 h
      obtain ⟨_, -, h⟩ := bind_eq_ok_iff.1 h
      cases h
    · cases h
  unfold nextSkippedMember
  cases skipBlanks bs with
  | nil => exact ⟨nofun, nofun⟩
  | cons c r =>
    simp only [List.cons.injEq]
    constructor
    · intro h
      split at h
      · cases h
        exact ⟨‹_›, rfl⟩
      split at h
      · exact absurd h (hskip _)
      split at h
      · exact absurd h (hskip _)
      · cases h
    · rintro ⟨rfl, rfl⟩
      rfl

/-- A key is skipped with its colon. -/
theorem skipKey_more_iff {bs r rest : Bytes} {c : UInt8} (start : skipBlanks bs = c :: r) :
    skipKey bs = .ok (.more rest) ↔
      ∃ r₁ k r₂, openKey c r = .ok (.more r₁) ∧ readToken r₁ = .ok (k, r₂) ∧ colon r₂ = .ok rest := by
  unfold skipKey openKey
  rw [start]
  simp only
  split
  · simp only [bind_eq_ok_iff]
    constructor
    · rintro ⟨r₂, hs, r₃, hc, h⟩
      cases h
      exact ⟨r, _, r₂, rfl, bind_eq_ok_iff.2 ⟨r₂, hs, rfl⟩, hc⟩
    · rintro ⟨_, k, r₂, h, hk, hc⟩
      cases h
      obtain ⟨_, hs, hk⟩ := bind_eq_ok_iff.1 hk
      cases hk
      exact ⟨r₂, hs, rest, hc, rfl⟩
  · exact ⟨nofun, nofun⟩

theorem nextSkippedMember_more_iff {first : Bool} {bs rest : Bytes} : nextSkippedMember first bs = .ok (.more rest) ↔
    ∃ r₁ k r₂, nextKey first bs = .ok (.more r₁) ∧ readToken r₁ = .ok (k, r₂) ∧ colon r₂ = .ok rest := by
  unfold nextSkippedMember nextKey
  cases hbs : skipBlanks bs with
  | nil => exact ⟨nofun, nofun⟩
  | cons c r =>
    simp only
    by_cases hc : c = 0x7d
    · simp only [if_pos hc]
      exact ⟨nofun, nofun⟩
    simp only [if_neg hc]
    cases first with
    | true =>
      simp only [if_true]
      exact skipKey_more_iff (hbs ▸ skipBlanks_skipBlanks bs)
    | false =>
      simp only [Bool.false_eq_true, if_false]
      split
      · cases hr : skipBlanks r with
        | nil =>
          simp only [skipKey, hr]
          exact ⟨nofun, nofun⟩
        | cons d r' =>
          simp only
          by_cases hd : d = 0x7d
          · subst hd
            simp only [skipKey, hr]
            exact ⟨nofun, nofun⟩
          · simp only [if_neg hd]
            exact skipKey_more_iff hr
      · exact ⟨nofun, nofun⟩

theorem skipRest_succ (next : Bool → Bytes → Except Fault Next) (fuel : Nat) {first : Bool} {bs rest : Bytes} :
    skipRest next (fuel + 1) first bs = .ok rest ↔ next first bs = .ok (.close rest) ∨
      ∃ r₁ r₂, next first bs = .ok (.more r₁) ∧ skipValue fuel r₁ = .ok r₂ ∧
        skipRest next fuel false r₂ = .ok rest := by
  rw [skipRest, bind_eq_ok_iff]
  constructor
  · rintro ⟨n | n, hn, h⟩
    · cases h
      exact Or.inl hn
    · obtain ⟨r, hr, h⟩ := bind_eq_ok_iff.1 h
      exact Or.inr ⟨n, r, hn, hr, h⟩
  · rintro (hn | ⟨r₁, r₂, hn, hr, h⟩)
    · exact ⟨_, hn, rfl⟩
    · exact ⟨_, hn, bind_eq_ok_iff.2 ⟨r₂, hr, h⟩⟩

/-- What is skipped has a form. -/
theorem exists_form_of_skip (fuel : Nat) :
    (∀ {bs rest}, skipValue fuel bs = .ok rest → ∃ f, Spans (.value f) bs rest) ∧
    (∀ {first bs rest}, skipRest nextSkippedItem fuel first bs = .ok rest → ∃ fs, Spans (.items first fs) bs rest) ∧
    ∀ {first bs rest}, skipRest nextSkippedMember fuel first bs = .ok rest →
      ∃ ms, Spans (.members first ms) bs rest := by
  induction fuel with
  | zero => exact ⟨nofun, nofun, nofun⟩
  | succ fuel ih =>
    obtain ⟨ihvalue, ihitems, ihmembers⟩ := ih
    refine ⟨?value, ?items, ?members⟩
    case value =>
      intro bs rest h
      obtain ⟨c, r, start, ⟨rfl, h⟩ | ⟨rfl, h⟩ | ⟨f, h⟩⟩ := (skipValue_succ ..).1 h
      · obtain ⟨fs, hfs⟩ := ihitems h
        exact ⟨_, .array start hfs⟩
      · obtain ⟨ms, hms⟩ := ihmembers h
        exact ⟨_, .object start hms⟩
      · exact ⟨f, .scalar start h⟩
    case items =>
      intro first bs rest h
      rcases (skipRest_succ ..).1 h with h | ⟨r₁, r₂, hn, hv, h⟩
      · exact ⟨[], .noItem (nextSkippedItem_close_iff.1 h)⟩
      · obtain ⟨f, hf⟩ := ihvalue hv
        obtain ⟨fs, hfs⟩ := ihitems h
        obtain ⟨r, hn, hf⟩ :=
          (nextSkippedItem_more_iff (fun _ => spans_skipBlanks) fun _ => Spans.start).1 ⟨r₁, hn, hf⟩
        exact ⟨f :: fs, .item hn hf hfs⟩
    case members =>
      intro first bs rest h
      rcases (skipRest_succ ..).1 h with h | ⟨r₁, r₂, hn, hv, h⟩
      · exact ⟨[], .noMember (nextSkippedMember_close_iff.1 h)⟩
      · obtain ⟨f, hf⟩ := ihvalue hv
        obtain ⟨ms, hms⟩ := ihmembers h
        obtain ⟨r, k, r', hn, hk, hc⟩ := nextSkippedMember_more_iff.1 hn
        exact ⟨(k, f) :: ms, .member hn hk hc hf hms⟩

/-- What has a form is skipped, with two steps for each byte. -/
theorem Spans.skipped {p : Part} {bs rest : Bytes} (h : Spans p bs rest) : ∀ {fuel : Nat},
    match p with
    | .value _ => 2 * bs.length + 2 ≤ fuel → skipValue fuel bs = .ok rest
    | .items first _ => 2 * bs.length + 3 ≤ fuel → skipRest nextSkippedItem fuel first bs = .ok rest
    | .members first _ => 2 * bs.length + 3 ≤ fuel → skipRest nextSkippedMember fuel first bs = .ok rest := by
  induction h with
  | @scalar _ _ _ _ f start read =>
    intro fuel hf
    obtain ⟨fuel, rfl⟩ := Nat.exists_eq_succ_of_ne_zero (Nat.ne_zero_of_lt hf)
    exact (skipValue_succ ..).2 ⟨_, _, start, Or.inr (Or.inr ⟨f, read⟩)⟩
  | array start _ ih =>
    intro fuel hf
    obtain ⟨fuel, rfl⟩ := Nat.exists_eq_succ_of_ne_zero (Nat.ne_zero_of_lt hf)
    have hlength := length_of_skipBlanks start
    exact (skipValue_succ ..).2 ⟨_, _, start, Or.inl ⟨rfl, ih (by omega)⟩⟩
  | object start _ ih =>
    intro fuel hf
    obtain ⟨fuel, rfl⟩ := Nat.exists_eq_succ_of_ne_zero (Nat.ne_zero_of_lt hf)
    have hlength := length_of_skipBlanks start
    exact (skipValue_succ ..).2 ⟨_, _, start, Or.inr (Or.inl ⟨rfl, ih (by omega)⟩)⟩
  | noItem close =>
    intro fuel hf
    obtain ⟨fuel, rfl⟩ := Nat.exists_eq_succ_of_ne_zero (Nat.ne_zero_of_lt hf)
    exact (skipRest_succ ..).2 (Or.inl (nextSkippedItem_close_iff.2 close))
  | item next value _ ihvalue ihitems =>
    intro fuel hf
    obtain ⟨fuel, rfl⟩ := Nat.exists_eq_succ_of_ne_zero (Nat.ne_zero_of_lt hf)
    have hnext := length_of_nextItem next
    rw [Next.length] at hnext
    have hvalue := value.shorter
    have hskip : skipValue fuel _ = _ := ihvalue (by omega)
    obtain ⟨r, hr, hskip⟩ := (nextSkippedItem_more_iff (fun _ => skipValue_skipBlanks) fun _ => skipValue_start).2
      ⟨_, next, hskip⟩
    exact (skipRest_succ ..).2 (Or.inr ⟨r, _, hr, hskip, ihitems (by omega)⟩)
  | noMember close =>
    intro fuel hf
    obtain ⟨fuel, rfl⟩ := Nat.exists_eq_succ_of_ne_zero (Nat.ne_zero_of_lt hf)
    exact (skipRest_succ ..).2 (Or.inl (nextSkippedMember_close_iff.2 close))
  | member next key colon value _ ihvalue ihmembers =>
    intro fuel hf
    obtain ⟨fuel, rfl⟩ := Nat.exists_eq_succ_of_ne_zero (Nat.ne_zero_of_lt hf)
    have hnext := length_of_nextKey next
    rw [Next.length] at hnext
    have hkey := length_of_readToken key
    have hcolon := length_of_colon colon
    have hvalue := value.shorter
    have hr := nextSkippedMember_more_iff.2 ⟨_, _, _, next, key, colon⟩
    exact (skipRest_succ ..).2 (Or.inr ⟨_, _, hr, ihvalue (by omega), ihmembers (by omega)⟩)

/-- **A value is skipped** exactly when it has a form. -/
theorem skip_eq_ok_iff {bs rest : Bytes} : skip bs = .ok rest ↔ ∃ f, Spans (.value f) bs rest := by
  constructor
  · exact (exists_form_of_skip _).1
  · rintro ⟨f, h⟩
    exact h.skipped (Nat.le_refl _)

end RegistryPublisher.Json
