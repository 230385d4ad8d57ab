import RegistryPublisher.Json.Document

/-!
# Documents as they are written

- `Json.Tree` is a JSON document with the members of an object in the order of the text, repeated keys included, and
  numbers by their spelling; `Tree.parse` reads it;
- `Tree.value?` is the value that a document denotes: the last member of a key counts;
- `Follows`: a reader accepts what another one accepts and a function has a result for;
- `parse_eq_ok_iff`: a text has a value exactly when it is a document that denotes it.
-/

namespace RegistryPublisher.Json

/-! ## Documents -/

/-- A JSON document as it is written. -/
inductive Tree where
  | null
  | bool (b : Bool)
  | number (n : Numeral)
  | string (s : String)
  | array (items : List Tree)
  | object (members : List (String × Tree))
  deriving Inhabited

namespace Tree

/-- A document that is no array or object, from its first byte. -/
def readScalar (c : UInt8) (r : Bytes) : Except Fault (Tree × Bytes) :=
  if c = 0x6e then do return (null, ← word (Utf8.encode "ull") r)
  else if c = 0x74 then do return (bool true, ← word (Utf8.encode "rue") r)
  else if c = 0x66 then do return (bool false, ← word (Utf8.encode "alse") r)
  else if c = 0x22 then do
    let (s, rest) ← readString r
    return (string s, rest)
  else if startsNumber c then do
    let (n, rest) ← readNumeral .endInValue (c :: r)
    return (number n, rest)
  else stopAt .expectedValue (c :: r)

/-- A document, read with the readers of its items and values when brackets may still be opened. -/
def readWith (inner : Option (Reader Tree)) : Reader Tree := fun bs =>
  match skipBlanks bs with
  | [] => stop .endInValue []
  | c :: r =>
    if c = 0x5b then
      match inner with
      | none => stopAt .tooDeep (c :: r)
      | some item => do
        let (ts, rest) ← readItems item r
        return (array ts, rest)
    else if c = 0x7b then
      match inner with
      | none => stopAt .tooDeep (c :: r)
      | some item => do
        let (ms, rest) ← readMembers item r
        return (object ms, rest)
    else readScalar c r

/-- A document in which at most `depth` brackets are open at a time. -/
def read : Nat → Reader Tree
  | 0 => readWith none
  | depth + 1 => readWith (some (read depth))

/-- The document of a whole text. -/
def parse (text : Bytes) : Except Error Tree := decode (read maxDepth) text

mutual

/-- The value that a document denotes; there is none when a number is out of range. -/
def value? : Tree → Option Json
  | null => some .null
  | bool b => some (.bool b)
  | number n => n.value.toOption.map .number
  | string s => some (.string s)
  | array ts => (values? ts).map .array
  | object ms => (members? ms).map fun vs => .object (Members.ofList vs)

/-- The values of the items of an array. -/
def values? : List Tree → Option (List Json)
  | [] => some []
  | t :: ts => do return (← value? t) :: (← values? ts)

/-- The values of members, in the order of the text. -/
def members? : List (String × Tree) → Option (List (String × Json))
  | [] => some []
  | (k, t) :: ms => do return (k, ← value? t) :: (← members? ms)

end

end Tree

/-! ## Readers that follow another one -/

/-- A bound step succeeds exactly when both of its parts do. -/
theorem bind_eq_ok_iff {ε α β : Type} {x : Except ε α} {f : α → Except ε β} {b : β} :
    (x >>= f) = .ok b ↔ ∃ a, x = .ok a ∧ f a = .ok b := by
  cases x with
  | error e => exact ⟨nofun, nofun⟩
  | ok a => exact ⟨fun h => ⟨a, rfl, h⟩, fun ⟨_, ha, h⟩ => by cases ha; exact h⟩

theorem skipBlanks_skipBlanks (bs : Bytes) : skipBlanks (skipBlanks bs) = skipBlanks bs := by
  induction bs with
  | nil => rfl
  | cons c r ih =>
    cases h : isSpace c with
    | true => simpa [skipBlanks, List.dropWhile_cons, h] using ih
    | false => simp [skipBlanks, h]

/-- What `read` accepts is what `base` accepts and `f` has a result for, which is what `read` gives. -/
def Follows {α β : Type} (base : Reader β) (f : β → Option α) (read : Reader α) : Prop :=
  ∀ bs v rest, read bs = .ok (v, rest) ↔ ∃ t, base bs = .ok (t, rest) ∧ f t = some v

section Sequences

variable {α β : Type} {base : Reader β} {f : β → Option α} {read : Reader α}

theorem itemsFrom_succ (item : Reader α) (fuel : Nat) (first : Bool) (bs : Bytes) {vs : List α} {rest : Bytes} :
    itemsFrom item (fuel + 1) first bs = .ok (vs, rest) ↔
      (nextItem first bs = .ok (.close rest) ∧ vs = []) ∨
      ∃ r₁ v r₂ ws, nextItem first bs = .ok (.more r₁) ∧ item r₁ = .ok (v, r₂) ∧
        itemsFrom item fuel false r₂ = .ok (ws, rest) ∧ vs = v :: ws := by
  rw [itemsFrom, bind_eq_ok_iff]
  constructor
  · rintro ⟨next | next, hn, h⟩
    · cases h
      exact Or.inl ⟨hn, rfl⟩
    · obtain ⟨⟨v, r₂⟩, hv, h⟩ := bind_eq_ok_iff.1 h
      obtain ⟨⟨ws, r₃⟩, hws, h⟩ := bind_eq_ok_iff.1 h
      cases h
      exact Or.inr ⟨_, v, r₂, ws, hn, hv, hws, rfl⟩
  · rintro (⟨hn, rfl⟩ | ⟨r₁, v, r₂, ws, hn, hv, hws, rfl⟩)
    · exact ⟨_, hn, rfl⟩
    · exact ⟨_, hn, bind_eq_ok_iff.2 ⟨_, hv, bind_eq_ok_iff.2 ⟨_, hws, rfl⟩⟩⟩

theorem membersFrom_succ (value : Reader α) (fuel : Nat) (first : Bool) (bs : Bytes) {ms : List (String × α)}
    {rest : Bytes} : membersFrom value (fuel + 1) first bs = .ok (ms, rest) ↔
      (nextKey first bs = .ok (.close rest) ∧ ms = []) ∨
      ∃ r₁ k r₂ r₃ v r₄ ws, nextKey first bs = .ok (.more r₁) ∧ readString r₁ = .ok (k, r₂) ∧ colon r₂ = .ok r₃ ∧
        value r₃ = .ok (v, r₄) ∧ membersFrom value fuel false r₄ = .ok (ws, rest) ∧ ms = (k, v) :: ws := by
  rw [membersFrom, bind_eq_ok_iff]
  constructor
  · rintro ⟨next | next, hn, h⟩
    · cases h
      exact Or.inl ⟨hn, rfl⟩
    · obtain ⟨⟨k, r₂⟩, hk, h⟩ := bind_eq_ok_iff.1 h
      obtain ⟨r₃, hc, h⟩ := bind_eq_ok_iff.1 h
      obtain ⟨⟨v, r₄⟩, hv, h⟩ := bind_eq_ok_iff.1 h
      obtain ⟨⟨ws, r₅⟩, hws, h⟩ := bind_eq_ok_iff.1 h
      cases h
      exact Or.inr ⟨_, k, r₂, r₃, v, r₄, ws, hn, hk, hc, hv, hws, rfl⟩
  · rintro (⟨hn, rfl⟩ | ⟨r₁, k, r₂, r₃, v, r₄, ws, hn, hk, hc, hv, hws, rfl⟩)
    · exact ⟨_, hn, rfl⟩
    · refine ⟨_, hn, bind_eq_ok_iff.2 ⟨_, hk, bind_eq_ok_iff.2 ⟨_, hc, bind_eq_ok_iff.2 ⟨_, hv, ?_⟩⟩⟩⟩
      exact bind_eq_ok_iff.2 ⟨_, hws, rfl⟩

theorem mapM_cons_eq_some {γ δ : Type} {g : γ → Option δ} {a : γ} {as : List γ} {vs : List δ} :
    (a :: as).mapM g = some vs ↔ ∃ v ws, g a = some v ∧ as.mapM g = some ws ∧ vs = v :: ws := by
  rw [List.mapM_cons]
  constructor
  · intro h
    obtain ⟨v, hv, h⟩ := Option.bind_eq_some_iff.1 h
    obtain ⟨ws, hws, h⟩ := Option.bind_eq_some_iff.1 h
    exact ⟨v, ws, hv, hws, (Option.some.inj h).symm⟩
  · rintro ⟨v, ws, hv, hws, rfl⟩
    exact Option.bind_eq_some_iff.2 ⟨v, hv, Option.bind_eq_some_iff.2 ⟨ws, hws, rfl⟩⟩

/-- Applies a partial function to the value of a member. -/
def onValue (f : β → Option α) (m : String × β) : Option (String × α) := (f m.2).map (m.1, ·)

theorem onValue_eq_some_iff {m : String × β} {n : String × α} :
    onValue f m = some n ↔ f m.2 = some n.2 ∧ n.1 = m.1 := by
  obtain ⟨k, v⟩ := n
  simp [onValue, eq_comm]

theorem Follows.itemsFrom (h : Follows base f read) (fuel : Nat) :
    ∀ first, Follows (itemsFrom base fuel first) (List.mapM f) (itemsFrom read fuel first) := by
  induction fuel with
  | zero => exact fun _ _ _ _ => ⟨nofun, nofun⟩
  | succ fuel ih =>
    intro first bs vs rest
    rw [itemsFrom_succ]
    constructor
    · rintro (⟨hn, rfl⟩ | ⟨r₁, v, r₂, ws, hn, hv, hws, rfl⟩)
      · exact ⟨[], (itemsFrom_succ ..).2 (Or.inl ⟨hn, rfl⟩), rfl⟩
      · obtain ⟨t, ht, hf⟩ := (h ..).1 hv
        obtain ⟨ts, hts, hfs⟩ := (ih false ..).1 hws
        refine ⟨t :: ts, (itemsFrom_succ ..).2 (Or.inr ⟨r₁, t, r₂, ts, hn, ht, hts, rfl⟩), ?_⟩
        exact mapM_cons_eq_some.2 ⟨v, ws, hf, hfs, rfl⟩
    · rintro ⟨ts, hts, hf⟩
      rcases (itemsFrom_succ ..).1 hts with ⟨hn, rfl⟩ | ⟨r₁, t, r₂, us, hn, ht, hus, rfl⟩
      · cases hf
        exact Or.inl ⟨hn, rfl⟩
      · obtain ⟨v, ws, hv, hws, rfl⟩ := mapM_cons_eq_some.1 hf
        exact Or.inr ⟨r₁, v, r₂, ws, hn, (h ..).2 ⟨t, ht, hv⟩, (ih false ..).2 ⟨us, hus, hws⟩, rfl⟩

theorem Follows.membersFrom (h : Follows base f read) (fuel : Nat) :
    ∀ first, Follows (membersFrom base fuel first) (List.mapM (onValue f)) (membersFrom read fuel first) := by
  induction fuel with
  | zero => exact fun _ _ _ _ => ⟨nofun, nofun⟩
  | succ fuel ih =>
    intro first bs vs rest
    rw [membersFrom_succ]
    constructor
    · rintro (⟨hn, rfl⟩ | ⟨r₁, k, r₂, r₃, v, r₄, ws, hn, hk, hc, hv, hws, rfl⟩)
      · exact ⟨[], (membersFrom_succ ..).2 (Or.inl ⟨hn, rfl⟩), rfl⟩
      · obtain ⟨t, ht, hf⟩ := (h ..).1 hv
        obtain ⟨ts, hts, hfs⟩ := (ih false ..).1 hws
        refine ⟨(k, t) :: ts, ?_, mapM_cons_eq_some.2 ⟨(k, v), ws, onValue_eq_some_iff.2 ⟨hf, rfl⟩, hfs, rfl⟩⟩
        exact (membersFrom_succ ..).2 (Or.inr ⟨r₁, k, r₂, r₃, t, r₄, ts, hn, hk, hc, ht, hts, rfl⟩)
    · rintro ⟨ts, hts, hf⟩
      rcases (membersFrom_succ ..).1 hts with ⟨hn, rfl⟩ | ⟨r₁, k, r₂, r₃, t, r₄, us, hn, hk, hc, ht, hus, rfl⟩
      · cases hf
        exact Or.inl ⟨hn, rfl⟩
      · obtain ⟨⟨k', v⟩, ws, hm, hws, rfl⟩ := mapM_cons_eq_some.1 hf
        obtain ⟨hv, rfl⟩ := onValue_eq_some_iff.1 hm
        refine Or.inr ⟨r₁, k', r₂, r₃, v, r₄, ws, hn, hk, hc, (h ..).2 ⟨t, ht, hv⟩, ?_, rfl⟩
        exact (ih false ..).2 ⟨us, hus, hws⟩

theorem Follows.decode (h : Follows base f read) {text : Bytes} {v : α} :
    decode read text = .ok v ↔ ∃ t, decode base text = .ok t ∧ f t = some v := by
  rw [decode_eq_ok_iff]
  constructor
  · rintro ⟨rest, hr, hb⟩
    obtain ⟨t, ht, hf⟩ := (h ..).1 hr
    exact ⟨t, decode_eq_ok_iff.2 ⟨rest, ht, hb⟩, hf⟩
  · rintro ⟨t, ht, hf⟩
    obtain ⟨rest, hr, hb⟩ := decode_eq_ok_iff.1 ht
    exact ⟨rest, (h ..).2 ⟨t, hr, hf⟩, hb⟩

end Sequences

/-! ## Documents and values -/

theorem readNumber_eq_ok_iff {bs : Bytes} {v : Number} {rest : Bytes} :
    readNumber bs = .ok (v, rest) ↔ ∃ n, readNumeral .endInValue bs = .ok (n, rest) ∧ n.value = .ok v := by
  rw [readNumber, bind_eq_ok_iff]
  constructor
  · rintro ⟨⟨n, r⟩, hn, h⟩
    cases hv : n.value with
    | ok v' => simp only [hv] at h; cases h; exact ⟨n, hn, hv⟩
    | error k => simp only [hv] at h; cases h
  · rintro ⟨n, hn, hv⟩
    exact ⟨(n, rest), hn, by simp only [hv]⟩

namespace Tree

theorem values?_eq_mapM (ts : List Tree) : values? ts = ts.mapM value? := by
  induction ts with
  | nil => simp [values?]
  | cons t ts ih => simp [values?, ih]

theorem members?_eq_mapM (ms : List (String × Tree)) : members? ms = ms.mapM (onValue value?) := by
  induction ms with
  | nil => simp [members?]
  | cons m ms ih =>
    obtain ⟨k, t⟩ := m
    cases h : value? t <;> simp [members?, ih, onValue, h]

/-- What a scalar can be. -/
theorem readScalar_cases {c : UInt8} {r rest : Bytes} {t : Tree} (h : readScalar c r = .ok (t, rest)) :
    (c = 0x6e ∧ word (Utf8.encode "ull") r = .ok rest ∧ t = null) ∨
    (c = 0x74 ∧ word (Utf8.encode "rue") r = .ok rest ∧ t = bool true) ∨
    (c = 0x66 ∧ word (Utf8.encode "alse") r = .ok rest ∧ t = bool false) ∨
    (∃ s, c = 0x22 ∧ readString r = .ok (s, rest) ∧ t = string s) ∨
    ∃ n, startsNumber c = true ∧ readNumeral .endInValue (c :: r) = .ok (n, rest) ∧ t = number n := by
  unfold readScalar at h
  split at h
  · next hc =>
    obtain ⟨_, hw, h⟩ := bind_eq_ok_iff.1 h
    cases h
    exact Or.inl ⟨hc, hw, rfl⟩
  split at h
  · next hc =>
    obtain ⟨_, hw, h⟩ := bind_eq_ok_iff.1 h
    cases h
    exact Or.inr (Or.inl ⟨hc, hw, rfl⟩)
  split at h
  · next hc =>
    obtain ⟨_, hw, h⟩ := bind_eq_ok_iff.1 h
    cases h
    exact Or.inr (Or.inr (Or.inl ⟨hc, hw, rfl⟩))
  split at h
  · next hc =>
    obtain ⟨a, ha, h⟩ := bind_eq_ok_iff.1 h
    cases h
    exact Or.inr (Or.inr (Or.inr (Or.inl ⟨a.1, hc, ha, rfl⟩)))
  split at h
  · next hc =>
    obtain ⟨a, ha, h⟩ := bind_eq_ok_iff.1 h
    cases h
    exact Or.inr (Or.inr (Or.inr (Or.inr ⟨a.1, hc, ha, rfl⟩)))
  · cases h

section Scalars

variable {t : Tree} {v w : Json} {rest : Bytes}

theorem word_follows (x : Except Fault Bytes) (ht : t.value? = some w) :
    (do return (w, ← x) : Except Fault (Json × Bytes)) = .ok (v, rest) ↔
      ∃ u, (do return (t, ← x) : Except Fault (Tree × Bytes)) = .ok (u, rest) ∧ u.value? = some v := by
  cases x with
  | error e => exact ⟨nofun, nofun⟩
  | ok r =>
    constructor
    · intro h
      cases h
      exact ⟨t, rfl, ht⟩
    · rintro ⟨u, h, hu⟩
      cases h
      cases ht.symm.trans hu
      rfl

theorem scalar_eq_ok_iff (c : UInt8) (r : Bytes) :
    scalar c r = .ok (v, rest) ↔ ∃ t, readScalar c r = .ok (t, rest) ∧ t.value? = some v := by
  unfold scalar readScalar
  split
  · exact word_follows _ rfl
  split
  · exact word_follows _ rfl
  split
  · exact word_follows _ rfl
  split
  · simp only [bind_eq_ok_iff]
    constructor
    · rintro ⟨a, hs, h⟩
      cases h
      exact ⟨string a.1, ⟨a, hs, rfl⟩, rfl⟩
    · rintro ⟨t, ⟨a, hs, h⟩, hv⟩
      cases h
      cases hv
      exact ⟨a, hs, rfl⟩
  split
  · simp only [bind_eq_ok_iff]
    constructor
    · rintro ⟨a, hn, h⟩
      cases h
      obtain ⟨m, hm, hv⟩ := readNumber_eq_ok_iff.1 hn
      exact ⟨number m, ⟨(m, a.2), hm, rfl⟩, by simp [value?, hv, Except.toOption]⟩
    · rintro ⟨t, ⟨a, hm, h⟩, hv⟩
      cases h
      cases hx : a.1.value with
      | ok x =>
        simp only [value?, hx, Except.toOption, Option.map_some, Option.some.injEq] at hv
        exact ⟨(x, a.2), readNumber_eq_ok_iff.2 ⟨a.1, hm, hx⟩, by rw [← hv]; rfl⟩
      | error k => simp [value?, hx, Except.toOption] at hv
  · exact ⟨nofun, nofun⟩

end Scalars

/-- What is read from an opened array or object. -/
theorem bracket_follows {α β : Type} {base : Reader β} {f : β → Option α} {read : Reader α} (h : Follows base f read)
    (g : β → Tree) (g' : α → Json) (hg : ∀ b, (g b).value? = (f b).map g') (bs : Bytes) (v : Json) (rest : Bytes) :
    (do let (a, rest) ← read bs; return (g' a, rest) : Except Fault (Json × Bytes)) = .ok (v, rest) ↔
      ∃ t, (do let (b, rest) ← base bs; return (g b, rest) : Except Fault (Tree × Bytes)) = .ok (t, rest) ∧
        t.value? = some v := by
  simp only [bind_eq_ok_iff]
  constructor
  · rintro ⟨a, ha, e⟩
    cases e
    obtain ⟨b, hb, hf⟩ := (h ..).1 ha
    exact ⟨g b, ⟨(b, a.2), hb, rfl⟩, by rw [hg, hf]; rfl⟩
  · rintro ⟨t, ⟨b, hb, e⟩, hv⟩
    cases e
    rw [hg] at hv
    obtain ⟨a, ha, rfl⟩ := Option.map_eq_some_iff.1 hv
    exact ⟨(a, b.2), (h ..).2 ⟨b.1, hb, ha⟩, rfl⟩

theorem readItems_follows {item : Reader Json} {base : Reader Tree} (h : Follows base value? item) :
    Follows (readItems base) values? (readItems item) := by
  intro bs vs rest
  simp only [values?_eq_mapM]
  exact h.itemsFrom (bs.length + 1) true bs vs rest

theorem readMembers_follows {item : Reader Json} {base : Reader Tree} (h : Follows base value? item) :
    Follows (readMembers base) members? (readMembers item) := by
  intro bs vs rest
  simp only [members?_eq_mapM]
  exact h.membersFrom (bs.length + 1) true bs vs rest

theorem valueWith_follows {inner : Option (Reader Json)} {base : Option (Reader Tree)}
    (h : ∀ item, inner = some item → ∃ b, base = some b ∧ Follows b value? item) (hn : inner = none → base = none) :
    Follows (readWith base) value? (valueWith inner) := by
  intro bs v rest
  unfold valueWith readWith
  cases skipBlanks bs with
  | nil => exact ⟨nofun, fun h => nomatch h⟩
  | cons c r =>
    simp only
    split
    · cases inner with
      | none => rw [hn rfl]; exact ⟨nofun, fun h => nomatch h⟩
      | some item =>
        obtain ⟨b, rfl, hb⟩ := h item rfl
        exact bracket_follows (readItems_follows hb) array .array (fun _ => by rw [value?]) r v rest
    split
    · cases inner with
      | none => rw [hn rfl]; exact ⟨nofun, fun h => nomatch h⟩
      | some item =>
        obtain ⟨b, rfl, hb⟩ := h item rfl
        exact bracket_follows (readMembers_follows hb) object (fun vs => .object (Members.ofList vs))
          (fun _ => by rw [value?]) r v rest
    · exact scalar_eq_ok_iff c r

theorem readValue_follows (depth : Nat) : Follows (read depth) value? (readValue depth) := by
  induction depth with
  | zero => exact valueWith_follows nofun fun _ => rfl
  | succ depth ih => exact valueWith_follows (fun _ h => ⟨read depth, rfl, by cases h; exact ih⟩) nofun

end Tree

/-- **Texts and their values.** A text has a value exactly when it is a document that denotes it. -/
theorem parse_eq_ok_iff {text : Bytes} {v : Json} :
    parse text = .ok v ↔ ∃ t, Tree.parse text = .ok t ∧ t.value? = some v :=
  (Tree.readValue_follows maxDepth).decode

end RegistryPublisher.Json
