import RegistryPublisher.Proofs.Json.Tree
import RegistryPublisher.Proofs.Members

/-!
# Plain documents

- `Numeral.IsPlain`: a numeral is spelled as an integer and fits 64 bits, so its value is that integer
  (`Numeral.IsPlain.value_eq`);
- `Tree.PlainNumbers`: every number of a document is plain; `Tree.Within`: how many brackets it opens at a time
  (`Tree.read_within`);
- `Json.Plain` and `Json.Sorted`: what the values of such documents are like (`Tree.Within.exists_value`).
-/

namespace RegistryPublisher

/-! ## Numerals -/

/-- The integers that a number holds exactly. -/
def Number.Holds (i : Int) : Prop := -(pow2 63 : Int) ≤ i ∧ i < (pow2 64 : Int)

namespace Json

namespace Numeral

/-- The integer of the sign and the digits before the point. -/
def int (n : Numeral) : Int := if n.negative then -(Number.ofDigits n.whole : Int) else Number.ofDigits n.whole

/-- A numeral without a fraction and an exponent that is no negative zero and fits 64 bits. -/
structure IsPlain (n : Numeral) : Prop where
  fraction : n.fraction = none
  exponent : n.exponent = none
  signed : n.negative = true → n.int ≠ 0
  holds : Number.Holds n.int

end Numeral

theorem foldl_digits_mono (ds : List Nat) : ∀ m : Nat, m ≤ ds.foldl (fun n d => n * 10 + d) m := by
  induction ds with
  | nil => exact fun m => Nat.le_refl m
  | cons d ds ih =>
    intro m
    have := ih (m * 10 + d)
    rw [List.foldl_cons]
    omega

theorem absorb_eq {ds : List Nat} : ∀ {m : Nat}, ds.foldl (fun n d => n * 10 + d) m ≤ maxInteger →
    absorb m ds = (ds.foldl (fun n d => n * 10 + d) m, 0) := by
  induction ds with
  | nil => exact fun _ => rfl
  | cons d ds ih =>
    intro m h
    have hd : m * 10 + d ≤ maxInteger := Nat.le_trans (foldl_digits_mono ds _) h
    rw [absorb, if_pos hd, ih h]
    rfl

theorem Numeral.IsPlain.integer?_eq {n : Numeral} (h : n.IsPlain) : n.integer? = some n.int := by
  obtain ⟨negative, whole, fraction, exponent⟩ := n
  obtain ⟨rfl, rfl, hs, hl, hu⟩ := h
  have ha : absorb 0 whole = (Number.ofDigits whole, 0) := by
    refine absorb_eq ?_
    have h63 : Number.pow2 63 = 9223372036854775808 := rfl
    have h64 : Number.pow2 64 = 18446744073709551616 := rfl
    change Number.ofDigits whole ≤ Number.pow2 64 - 1
    cases negative <;> simp [int] at hl hu <;> omega
  rw [integer?]
  simp only [ha]
  cases negative with
  | false => rfl
  | true =>
    have hs := hs rfl
    simp only [int, if_true] at hs hl
    rw [if_pos rfl, if_pos (by omega)]
    rfl

theorem Numeral.IsPlain.value_eq {n : Numeral} (h : n.IsPlain) : n.value = .ok (.integer n.int) := by
  rw [value, h.integer?_eq]

/-! ## Documents -/

namespace Tree

/-- Every number is a plain one. -/
inductive PlainNumbers : Tree → Prop
  | null : PlainNumbers null
  | bool (b : Bool) : PlainNumbers (bool b)
  | number {n : Numeral} (h : n.IsPlain) : PlainNumbers (number n)
  | string (s : String) : PlainNumbers (string s)
  | array {ts : List Tree} (h : ∀ t ∈ ts, PlainNumbers t) : PlainNumbers (array ts)
  | object {ms : List (String × Tree)} (h : ∀ m ∈ ms, PlainNumbers m.2) : PlainNumbers (object ms)

/-- At most `depth` brackets are open at a time. -/
inductive Within : Nat → Tree → Prop
  | null {depth : Nat} : Within depth null
  | bool {depth : Nat} (b : Bool) : Within depth (bool b)
  | number {depth : Nat} (n : Numeral) : Within depth (number n)
  | string {depth : Nat} (s : String) : Within depth (string s)
  | array {depth : Nat} {ts : List Tree} (h : ∀ t ∈ ts, Within depth t) : Within (depth + 1) (array ts)
  | object {depth : Nat} {ms : List (String × Tree)} (h : ∀ m ∈ ms, Within depth m.2) : Within (depth + 1) (object ms)

end Tree

section Sequences

variable {α : Type} {P : α → Prop} {item : Reader α} (h : ∀ bs v rest, item bs = .ok (v, rest) → P v)
include h

theorem itemsFrom_all (fuel : Nat) : ∀ {first : Bool} {bs : Bytes} {vs : List α} {rest : Bytes},
    itemsFrom item fuel first bs = .ok (vs, rest) → ∀ v ∈ vs, P v := by
  induction fuel with
  | zero => exact fun h => nomatch h
  | succ fuel ih =>
    intro first bs vs rest hr
    rcases (itemsFrom_succ ..).1 hr with ⟨-, rfl⟩ | ⟨r₁, v, r₂, ws, -, hv, hws, rfl⟩
    · exact fun _ hm => absurd hm (List.not_mem_nil)
    · exact List.forall_mem_cons.2 ⟨h _ _ _ hv, ih hws⟩

theorem membersFrom_all (fuel : Nat) : ∀ {first : Bool} {bs : Bytes} {ms : List (String × α)} {rest : Bytes},
    membersFrom item fuel first bs = .ok (ms, rest) → ∀ m ∈ ms, P m.2 := by
  induction fuel with
  | zero => exact fun h => nomatch h
  | succ fuel ih =>
    intro first bs vs rest hr
    rcases (membersFrom_succ ..).1 hr with ⟨-, rfl⟩ | ⟨r₁, k, r₂, r₃, v, r₄, ws, -, -, -, hv, hws, rfl⟩
    · exact fun _ hm => absurd hm (List.not_mem_nil)
    · exact List.forall_mem_cons.2 ⟨h _ _ _ hv, ih hws⟩

end Sequences

namespace Tree

theorem readScalar_within {c : UInt8} {r rest : Bytes} {t : Tree} (h : readScalar c r = .ok (t, rest)) (depth : Nat) :
    t.Within depth := by
  rcases readScalar_cases h with ⟨-, -, rfl⟩ | ⟨-, -, rfl⟩ | ⟨-, -, rfl⟩ | ⟨s, -, -, rfl⟩ | ⟨n, -, -, rfl⟩
  · exact .null
  · exact .bool true
  · exact .bool false
  · exact .string s
  · exact .number n

/-- What a document can be that is read with the given reader inside brackets. -/
theorem readWith_cases {inner : Option (Reader Tree)} {bs rest : Bytes} {t : Tree}
    (h : readWith inner bs = .ok (t, rest)) :
    (∃ c r, skipBlanks bs = c :: r ∧ readScalar c r = .ok (t, rest)) ∨
    ∃ item r, inner = some item ∧
      ((skipBlanks bs = 0x5b :: r ∧ ∃ ts, readItems item r = .ok (ts, rest) ∧ t = array ts) ∨
        (skipBlanks bs = 0x7b :: r ∧ ∃ ms, readMembers item r = .ok (ms, rest) ∧ t = object ms)) := by
  unfold readWith at h
  split at h
  · cases h
  next c r hb =>
  split at h
  · next hc =>
    cases inner with
    | none => cases h
    | some item =>
      obtain ⟨a, ha, h⟩ := bind_eq_ok_iff.1 h
      cases h
      exact Or.inr ⟨item, r, rfl, Or.inl ⟨by rw [hb, hc], a.1, ha, rfl⟩⟩
  split at h
  · next hc =>
    cases inner with
    | none => cases h
    | some item =>
      obtain ⟨a, ha, h⟩ := bind_eq_ok_iff.1 h
      cases h
      exact Or.inr ⟨item, r, rfl, Or.inr ⟨by rw [hb, hc], a.1, ha, rfl⟩⟩
  · exact Or.inl ⟨c, r, hb, h⟩

theorem read_within (depth : Nat) : ∀ bs t rest, read depth bs = .ok (t, rest) → t.Within depth := by
  induction depth with
  | zero =>
    intro bs t rest h
    rcases readWith_cases h with ⟨c, r, -, hs⟩ | ⟨item, r, hi, -⟩
    · exact readScalar_within hs 0
    · cases hi
  | succ depth ih =>
    intro bs t rest h
    rcases readWith_cases h with ⟨c, r, -, hs⟩ | ⟨item, r, hi, ⟨-, ts, hts, rfl⟩ | ⟨-, ms, hms, rfl⟩⟩
    · exact readScalar_within hs _
    · cases hi
      exact .array (itemsFrom_all ih _ hts)
    · cases hi
      exact .object (membersFrom_all ih _ hms)

/-- The members of an object open one bracket less. -/
theorem within_members {depth : Nat} {ms : List (String × Tree)} (h : Within depth (object ms)) :
    ∀ m ∈ ms, Within (depth - 1) m.2 := by
  cases h with
  | object h => exact h

theorem parse_within {text : Bytes} {t : Tree} (h : parse text = .ok t) : t.Within maxDepth := by
  obtain ⟨rest, h, -⟩ := decode_eq_ok_iff.1 h
  exact read_within _ _ _ _ h

end Tree

end Json

/-! ## Values -/

namespace Json

/-- There are no doubles, integers fit, and at most `depth` brackets are open at a time when the value is written. -/
inductive Plain : Nat → Json → Prop
  | null {depth : Nat} : Plain depth null
  | bool {depth : Nat} (b : Bool) : Plain depth (bool b)
  | integer {depth : Nat} {i : Int} (h : Number.Holds i) : Plain depth (number (.integer i))
  | string {depth : Nat} (s : String) : Plain depth (string s)
  | array {depth : Nat} {vs : List Json} (h : ∀ v ∈ vs, Plain depth v) : Plain (depth + 1) (array vs)
  | object {depth : Nat} {ms : List (String × Json)} (h : ∀ m ∈ ms, Plain depth m.2) : Plain (depth + 1) (object ms)

/-- The members of every object stand in key order. -/
inductive Sorted : Json → Prop
  | null : Sorted null
  | bool (b : Bool) : Sorted (bool b)
  | number (n : Number) : Sorted (number n)
  | string (s : String) : Sorted (string s)
  | array {vs : List Json} (h : ∀ v ∈ vs, Sorted v) : Sorted (array vs)
  | object {ms : List (String × Json)} (ordered : Members.Ordered ms) (h : ∀ m ∈ ms, Sorted m.2) : Sorted (object ms)

theorem exists_mapM {α β : Type} {g : α → Option β} {P : β → Prop} {as : List α}
    (h : ∀ a ∈ as, ∃ b, g a = some b ∧ P b) : ∃ bs, as.mapM g = some bs ∧ ∀ b ∈ bs, P b := by
  induction as with
  | nil => exact ⟨[], rfl, fun _ hb => absurd hb (List.not_mem_nil)⟩
  | cons a as ih =>
    obtain ⟨⟨b, hb, hp⟩, h⟩ := List.forall_mem_cons.1 h
    obtain ⟨bs, hbs, hps⟩ := ih h
    exact ⟨b :: bs, mapM_cons_eq_some.2 ⟨b, bs, hb, hbs, rfl⟩, List.forall_mem_cons.2 ⟨hp, hps⟩⟩

theorem Tree.exists_members {ms : List (String × Tree)} {P : Json → Prop}
    (h : ∀ m ∈ ms, ∃ v, m.2.value? = some v ∧ P v) : ∃ vs, members? ms = some vs ∧ ∀ m ∈ vs, P m.2 := by
  rw [members?_eq_mapM]
  refine exists_mapM fun m hm => ?_
  obtain ⟨v, hv, hp⟩ := h m hm
  exact ⟨(m.1, v), onValue_eq_some_iff.2 ⟨hv, rfl⟩, hp⟩

/-- A document with plain numbers has a value, which is plain and sorted. -/
theorem Tree.Within.exists_value {depth : Nat} {t : Tree} (h : t.Within depth) (hp : t.PlainNumbers) :
    ∃ v, t.value? = some v ∧ v.Plain depth ∧ v.Sorted := by
  induction h with
  | null => exact ⟨.null, rfl, .null, .null⟩
  | bool b => exact ⟨.bool b, rfl, .bool b, .bool b⟩
  | string s => exact ⟨.string s, rfl, .string s, .string s⟩
  | number n =>
    cases hp with
    | number hn => exact ⟨_, by rw [value?, hn.value_eq]; rfl, .integer hn.holds, .number _⟩
  | array h ih =>
    cases hp with
    | array hp =>
      obtain ⟨vs, hvs, hall⟩ := exists_mapM fun t ht => ih t ht (hp t ht)
      refine ⟨.array vs, by rw [value?, values?_eq_mapM, hvs]; rfl, ?_, ?_⟩
      · exact .array fun v hv => (hall v hv).1
      · exact .array fun v hv => (hall v hv).2
  | object h ih =>
    cases hp with
    | object hp =>
      obtain ⟨vs, hvs, hall⟩ := exists_members fun m hm => ih m hm (hp m hm)
      refine ⟨.object (Members.ofList vs), by rw [value?, hvs]; rfl, ?_, ?_⟩
      · exact .object fun v hv => (hall v (Members.mem_ofList hv)).1
      · exact .object (Members.ordered_ofList vs) fun v hv => (hall v (Members.mem_ofList hv)).2

end Json

end RegistryPublisher
