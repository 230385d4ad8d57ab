import RegistryPublisher.Proofs.Descriptor.Place
import RegistryPublisher.Proofs.Json.Large

/-!
# Numbers that are passed through

- `Spells.hasDigits`: the numerals of a document have decimal digits;
- `encode_numbers`: every number of another member is written where it stood, as the number that was held;
- `encode_integers`: so integers of 64 bits stay what they are, and larger ones become multiples of ten.
-/

namespace RegistryPublisher

namespace Json

/-- The numerals at all places of the document have decimal digits. -/
def Tree.HasDigits (t : Tree) : Prop :=
  ∀ (p : List Step) (n : Numeral), t.at? p = some (.number n) → ∀ d ∈ n.whole, d < 10

/-- The same for a piece of a document. -/
def Piece.HasDigits : Piece → Prop
  | .value t | .element t | .member _ t => t.HasDigits
  | .elements ts => ∀ t ∈ ts, t.HasDigits
  | .members ms => ∀ m ∈ ms, m.2.HasDigits

namespace Tree

theorem hasDigits_of_steps {t : Tree} (root : ∀ n, t = .number n → ∀ d ∈ n.whole, d < 10)
    (steps : ∀ s u, t.step? s = some u → u.HasDigits) : t.HasDigits := by
  intro p n hn
  cases p with
  | nil => exact root n (Option.some.inj hn)
  | cons s p =>
    obtain ⟨u, hu, hat⟩ := Option.bind_eq_some_iff.1 hn
    exact steps s u hu p n hat

theorem array_hasDigits {ts : List Tree} (h : ∀ t ∈ ts, t.HasDigits) : (array ts).HasDigits := by
  refine hasDigits_of_steps nofun fun s u hu => ?_
  cases s with
  | key k => cases hu
  | item i => exact h u (List.mem_of_getElem? hu)

theorem object_hasDigits {ms : List (String × Tree)} (h : ∀ m ∈ ms, m.2.HasDigits) : (object ms).HasDigits := by
  refine hasDigits_of_steps nofun fun s u hu => ?_
  cases s with
  | item i => cases hu
  | key k => exact h (k, u) (List.mem_reverse.1 (Members.mem_of_find?_eq_some hu))

end Tree

/-- What is spelled has decimal digits. -/
theorem Spells.hasDigits {p : Piece} {w : Bytes} (h : Spells p w) : p.HasDigits := by
  induction h with
  | null => exact Tree.hasDigits_of_steps nofun fun s _ h => by cases s <;> cases h
  | bool b => exact Tree.hasDigits_of_steps nofun fun s _ h => by cases s <;> cases h
  | number h => exact Tree.hasDigits_of_steps (fun m e => by cases e; exact h.whole_lt) fun s _ h => by cases s <;> cases h
  | string h => exact Tree.hasDigits_of_steps nofun fun s _ h => by cases s <;> cases h
  | emptyArray _ => exact Tree.array_hasDigits nofun
  | array _ ih => exact Tree.array_hasDigits ih
  | emptyObject _ => exact Tree.object_hasDigits nofun
  | object _ ih => exact Tree.object_hasDigits ih
  | element _ _ _ ih => exact ih
  | lastElement _ ih => exact List.forall_mem_singleton.2 ih
  | elements _ _ ih ihs => exact List.forall_mem_cons.2 ⟨ih, ihs⟩
  | member _ _ _ _ ih => exact ih
  | lastMember _ ih => exact List.forall_mem_singleton.2 ih
  | members _ _ ih ihs => exact List.forall_mem_cons.2 ⟨ih, ihs⟩

end Json

namespace Descriptor

open Json (Numeral Step Tree)

/-- A descriptor that was read is written as a document with the numbers of its members at the same places. -/
theorem exists_encode_mirror {text : Bytes} {d : Descriptor} (hd : decode text = .ok d) :
    ∃ t', Tree.Document t' d.encode ∧ ∀ p x, (Json.object d.members).at? p = some (.number x) →
      t'.at? p = some (.number x.numeral) := by
  have hr := representable_of_decode hd
  have hall : ∀ m ∈ d.members, ∃ t, Json.Mirrors m.2 t :=
    forall_members (P := fun v => ∃ t, Json.Mirrors v t) (fun s => (Json.Representable.string s).exists_mirror)
      fun m hm => (hr.values m hm).exists_mirror
  obtain ⟨ts, hspells, hnumbers⟩ := Json.exists_object_mirror (members_nodup hr.ordered (keys_of_decode hd)) hall
  exact ⟨.object ts, encode_eq_render d ▸ hspells.bare, hnumbers⟩

/-- Every number of another member is written where it stood, as the number that was held for it. -/
theorem encode_numbers {text : Bytes} {t : Tree} {d : Descriptor} (ht : t.Document text) (hd : decode text = .ok d) :
    ∃ t' : Tree, t'.Document d.encode ∧ ∀ k p n, k ∉ textKeys → t.at? (.key k :: p) = some (.number n) →
      ∃ x, n.value = .ok x ∧ t'.at? (.key k :: p) = some (.number x.numeral) := by
  obtain ⟨t', ht', hnumbers⟩ := exists_encode_mirror hd
  refine ⟨t', ht', fun k p n hk hn => ?_⟩
  obtain ⟨ms, vs, rfl, -, hvs, rfl⟩ := ofTree?_eq_some_iff.1 (ofTree?_of_document ht hd)
  obtain ⟨u, hu, hat⟩ := Option.bind_eq_some_iff.1 hn
  have hu : Members.find? k (others ms).reverse = some u := (find?_others_reverse hk ms).trans hu
  obtain ⟨v, -, hv⟩ := Tree.mem_of_members? hvs (List.mem_reverse.1 (Members.mem_of_find?_eq_some hu))
  have hfind : Members.find? k (Members.ofList vs) = some v := by
    rw [find?_ofList_members? hvs, hu]
    exact hv
  obtain ⟨x, hx, hplace⟩ := Tree.at?_value? p hv hat
  exact ⟨x, hx, hnumbers _ x (Option.bind_eq_some_iff.2 ⟨v, (find?_members_other hk).trans hfind, hplace⟩)⟩

/-- A multiple of ten is no integer that ends in another digit. -/
theorem ne_of_ten {q : ℚ} {m i : ℤ} (h : q = 10 * m) (hi : i % 10 ≠ 0) : q ≠ i := by
  rintro rfl
  have hmul : i = 10 * m := by exact_mod_cast h
  omega

/-- **What becomes of integers.** The canonical form of a descriptor that was read is a document, and where an integer
without a fraction or an exponent stands in another member of the text, at any depth, a number stands in it. For an
integer that fits 64 bits it is this integer. For any other one it is the shortest decimal of the double that
floating-point arithmetic makes of the digits, and a multiple of ten: so none stays what it is unless it ends in a
zero. -/
theorem encode_integers {text : Bytes} {t : Tree} {d : Descriptor} (ht : t.Document text) (hd : decode text = .ok d) :
    ∃ t' : Tree, t'.Document d.encode ∧ ∀ k p n, k ∉ textKeys → t.at? (.key k :: p) = some (.number n) → n.IsInteger →
      ∃ n', t'.at? (.key k :: p) = some (.number n') ∧ (Number.Holds n.int → n'.rat = n.int) ∧
        (¬Number.Holds n.int → ∃ y, n.double = .ok y ∧ n'.rat = y.shortestRat ∧ ∃ m : ℤ, n'.rat = 10 * m) := by
  obtain ⟨t', ht', hnumbers⟩ := encode_numbers ht hd
  refine ⟨t', ht', fun k p n hk hn hint => ?_⟩
  obtain ⟨x, hx, hplace⟩ := hnumbers k p n hk hn
  refine ⟨x.numeral, hplace, fun hholds => hint.held hholds hx, fun hlarge => ?_⟩
  obtain ⟨y, hy, hrat, hten⟩ := hint.held_large (ht.hasDigits _ n hn) hlarge hx
  exact ⟨y, hy, hrat, hrat ▸ hten⟩

/-- The integer that is larger by two than the largest of 64 bits. -/
def beyond : Numeral := ⟨false, [1, 8, 4, 4, 6, 7, 4, 4, 0, 7, 3, 7, 0, 9, 5, 5, 1, 6, 1, 7], none, none⟩

theorem beyond_isInteger : beyond.IsInteger := ⟨rfl, rfl⟩

theorem beyond_large : ¬Number.Holds beyond.int := fun h => absurd h.2 (by decide)

theorem beyond_value : beyond.value = .ok (.float ⟨false, 4503599627370496, 1086⟩) := by decide +kernel

/-- The largest integer of 64 bits is written as it is, and one that is larger by two is not. -/
theorem encode_integers_items :
    let text := Utf8.encode "\x7b\"x\":[18446744073709551615,18446744073709551617]\x7d"
    ∃ d t' n n', decode text = .ok d ∧ Tree.Document t' d.encode ∧
      t'.at? [.key "x", .item 0] = some (.number n) ∧ n.rat = 18446744073709551615 ∧
      t'.at? [.key "x", .item 1] = some (.number n') ∧ n'.rat ≠ 18446744073709551617 := by
  intro text
  -- the bytes are written out, so that readers need not encode the string for each of them
  have htext : text = [
    0x7b, 0x22, 0x78, 0x22, 0x3a, 0x5b, 0x31, 0x38, 0x34, 0x34, 0x36, 0x37, 0x34, 0x34, 0x30, 0x37, 0x33, 0x37,
    0x30, 0x39, 0x35, 0x35, 0x31, 0x36, 0x31, 0x35, 0x2c, 0x31, 0x38, 0x34, 0x34, 0x36, 0x37, 0x34, 0x34, 0x30,
    0x37, 0x33, 0x37, 0x30, 0x39, 0x35, 0x35, 0x31, 0x36, 0x31, 0x37, 0x5d, 0x7d] := by decide
  let most : Numeral := ⟨false, [1, 8, 4, 4, 6, 7, 4, 4, 0, 7, 3, 7, 0, 9, 5, 5, 1, 6, 1, 5], none, none⟩
  have hmost : most.IsPlain := ⟨rfl, rfl, nofun, by decide, by decide⟩
  obtain ⟨ht, hdepth⟩ := Tree.parse_eq_ok_iff.1
    (show Tree.parse text = .ok (.object [("x", .array [.number most, .number beyond])]) by rw [htext]; rfl)
  have hrange : (Tree.array [.number most, .number beyond]).InRange := by
    refine .array ?_
    simp only [List.forall_mem_cons, List.not_mem_nil, false_implies, implies_true, and_true]
    exact ⟨.number hmost.value_eq, .number beyond_value⟩
  obtain ⟨d, hd⟩ := (exists_decode_iff ht hdepth (.object (List.forall_mem_singleton.2 hrange))).2
    ⟨_, rfl, by simp [textKeys]⟩
  obtain ⟨t', ht', hintegers⟩ := encode_integers ht hd
  obtain ⟨n, hn, hsame, -⟩ := hintegers "x" [.item 0] most (by decide) rfl ⟨rfl, rfl⟩
  obtain ⟨n', hn', -, hlarge⟩ := hintegers "x" [.item 1] beyond (by decide) rfl beyond_isInteger
  obtain ⟨y, -, -, m, hm⟩ := hlarge beyond_large
  exact ⟨d, t', n, n', hd, ht', hn, hsame hmost.holds, hn', ne_of_ten (i := 18446744073709551617) hm (by decide)⟩

/-- The integer that is larger by two than the largest of 64 bits is not passed through. -/
theorem encode_integers_changed :
    let text := Utf8.encode "\x7b\"x\":18446744073709551617\x7d"
    ∃ t d t' n n', Tree.Document t text ∧ decode text = .ok d ∧ Tree.Document t' d.encode ∧ "x" ∉ textKeys ∧
      t.at? [.key "x"] = some (.number n) ∧ n.IsInteger ∧ n.int = 18446744073709551617 ∧
      t'.at? [.key "x"] = some (.number n') ∧ n'.rat ≠ n.int := by
  intro text
  -- the bytes are written out, so that readers need not encode the string for each of them
  have htext : text = [
    0x7b, 0x22, 0x78, 0x22, 0x3a, 0x31, 0x38, 0x34, 0x34, 0x36, 0x37, 0x34, 0x34, 0x30, 0x37, 0x33, 0x37, 0x30,
    0x39, 0x35, 0x35, 0x31, 0x36, 0x31, 0x37, 0x7d] := by decide
  obtain ⟨ht, hdepth⟩ := Tree.parse_eq_ok_iff.1
    (show Tree.parse text = .ok (.object [("x", .number beyond)]) by rw [htext]; rfl)
  obtain ⟨d, hd⟩ := (exists_decode_iff ht hdepth (.object (List.forall_mem_singleton.2 (.number beyond_value)))).2
    ⟨_, rfl, by simp [textKeys]⟩
  obtain ⟨t', ht', hnumbers⟩ := encode_numbers ht hd
  obtain ⟨x, hx, hplace⟩ := hnumbers "x" [] beyond (by decide) rfl
  obtain ⟨y, -, hrat, m, hm⟩ := beyond_isInteger.held_large (by decide) beyond_large hx
  refine ⟨_, d, t', beyond, x.numeral, ht, hd, ht', by decide, rfl, beyond_isInteger, by decide, hplace, ?_⟩
  exact ne_of_ten (hrat.trans hm) (by decide)

end Descriptor

end RegistryPublisher
