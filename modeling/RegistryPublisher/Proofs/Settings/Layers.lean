import RegistryPublisher.Proofs.Settings.Merge
import RegistryPublisher.Settings.Load

/-!
# Layers of settings

- `Setting` names what users configure, with the table and the key it stands under;
- `Value.Fits`: a layer gives texts to the settings it has, in tables;
- `textAt_merge`: of two such layers, a setting has the text of the upper one that gives it any, and the merged layers
  are one such layer again;
- `ofValue_fits`: the settings in such a layer are its texts;
- `ofValue_congr`: nothing matters but what stands under the keys of the tables.
-/

namespace RegistryPublisher.Settings

/-- What users configure. -/
inductive Setting where
  | registryUrl
  | token
  | tokenFile
  deriving DecidableEq, Repr

namespace Setting

/-- The key of the table that the setting stands in. -/
def table : Setting → String
  | registryUrl => "registry"
  | token => "auth"
  | tokenFile => "auth"

/-- The key of the setting in its table. -/
def key : Setting → String
  | registryUrl => "url"
  | token => "token"
  | tokenFile => "token_file"

/-- The keys on the way to the setting. -/
def path (k : Setting) : List String := [k.table, k.key]

instance {p : Setting → Prop} [DecidablePred p] : Decidable (∀ k, p k) :=
  decidable_of_iff (p .registryUrl ∧ p .token ∧ p .tokenFile)
    ⟨fun ⟨hurl, htoken, hfile⟩ k => by cases k <;> assumption, fun h => ⟨h _, h _, h _⟩⟩

end Setting

/-- The text of a setting. -/
def get (s : Settings) : Setting → String
  | .registryUrl => s.registryUrl
  | .token => s.token
  | .tokenFile => s.tokenFile

namespace Value

variable {a b v : Value}

/-- What a layer has for a setting. -/
def under? (k : Setting) (v : Value) : Option Value := (v.get? k.table).bind (get? k.key)

/-- The text of a value that is one. -/
def text? : Value → Option String
  | string s => some s
  | _ => none

/-- The text that a layer gives a setting, if it gives any. -/
def textAt (k : Setting) (v : Value) : Option String := (v.under? k).bind text?

/-- A layer: settings stand in tables and are texts, everything else is free. -/
structure Fits (v : Value) : Prop where
  isTable : ∃ ms, v = table ms
  tables : ∀ (k : Setting) x, v.get? k.table = some x → ∃ ms, x = table ms
  texts : ∀ k x, v.under? k = some x → ∃ s, x = string s

/-- Whether a value is a table. -/
def isTable : Value → Bool
  | table _ => true
  | _ => false

theorem isTable_iff : v.isTable = true ↔ ∃ ms, v = table ms := by
  cases v <;> simp [isTable]

theorem text?_eq_some {s : String} : v.text? = some s ↔ v = string s := by
  cases v <;> simp [text?]

theorem isSome_text?_iff : v.text?.isSome = true ↔ ∃ s, v = string s := by
  cases v <;> simp [text?]

theorem fits_iff : v.Fits ↔ v.isTable = true ∧ ∀ k : Setting,
    (v.get? k.table).all isTable = true ∧ (v.under? k).all (fun x => x.text?.isSome) = true := by
  simp only [Option.all_eq_true, isTable_iff, isSome_text?_iff]
  exact ⟨fun h => ⟨h.isTable, fun k => ⟨h.tables k, h.texts k⟩⟩, fun h => ⟨h.1, fun k => (h.2 k).1, fun k => (h.2 k).2⟩⟩

instance : Decidable v.Fits := decidable_of_iff' _ fits_iff

theorem Fits.under?_eq (h : v.Fits) (k : Setting) : v.under? k = (v.textAt k).map string := by
  rw [textAt]
  cases he : v.under? k with
  | none => rfl
  | some x =>
    obtain ⟨s, rfl⟩ := h.texts k x he
    rfl

theorem Fits.empty : (Value.table []).Fits := ⟨⟨[], rfl⟩, nofun, nofun⟩

/-! ## One layer over another -/

/-- A text replaces what was there. -/
theorem overlaid_text {o n : Option Value} (h : ∀ x, n = some x → ∃ s, x = string s) : overlaid o n = n.or o := by
  cases n with
  | none => exact overlaid_none o
  | some x =>
    obtain ⟨s, rfl⟩ := h x rfl
    cases o with
    | none => rfl
    | some o => exact congrArg some (by simp only [merge])

/-- Tables are merged to a table. -/
theorem overlaid_isTable {o n : Option Value} (ho : ∀ x, o = some x → ∃ ms, x = table ms)
    (hn : ∀ x, n = some x → ∃ ms, x = table ms) : ∀ x, overlaid o n = some x → ∃ ms, x = table ms := by
  intro x hx
  cases n with
  | none => exact ho x (overlaid_none o ▸ hx)
  | some y =>
    cases o with
    | none =>
      cases hx
      exact hn _ rfl
    | some o =>
      cases hx
      exact merge_isTable o (hn y rfl)

/-- What both layers have for a setting is merged, if the upper one has a table for it or nothing. -/
theorem under?_overlaid (a : Value) (hb : b.IsLayer) {k : Setting} (htable : ∀ y, b.get? k.table = some y → ∃ ns, y = table ns) :
    (a.merge b).under? k = overlaid (a.under? k) (b.under? k) := by
  rw [under?, under?, under?, get?_merge k.table a hb]
  cases hy : b.get? k.table with
  | none => rw [overlaid_none]; exact (overlaid_none _).symm
  | some y =>
    obtain ⟨ns, rfl⟩ := htable y hy
    cases a.get? k.table with
    | none => exact (none_overlaid _).symm
    | some x => exact get?_merge k.key x (hb.get? hy)

/-- What the upper layer has for a setting, else what the lower one has. -/
theorem under?_merge (a : Value) (hb : b.Fits) (hl : b.IsLayer) (k : Setting) :
    (a.merge b).under? k = (b.under? k).or (a.under? k) := by
  rw [under?_overlaid a hl (hb.tables k), overlaid_text (hb.texts k)]

/-- Layers that fit give a layer that fits. -/
theorem Fits.merge (ha : a.Fits) (hb : b.Fits) (hl : b.IsLayer) : (a.merge b).Fits := by
  refine ⟨merge_isTable a hl.isTable, fun k x hx => ?tables, fun k x hx => ?texts⟩
  case tables =>
    rw [get?_merge k.table a hl] at hx
    exact overlaid_isTable (ha.tables k) (hb.tables k) x hx
  case texts =>
    rw [under?_merge a hb hl] at hx
    rcases Option.or_eq_some_iff.1 hx with h | ⟨-, h⟩
    · exact hb.texts k x h
    · exact ha.texts k x h

/-- **The upper layer wins**, setting by setting; where it says nothing, the lower one stays. -/
theorem textAt_merge (a : Value) (hb : b.Fits) (hl : b.IsLayer) (k : Setting) :
    (a.merge b).textAt k = (b.textAt k).or (a.textAt k) := by
  rw [textAt, under?_merge a hb hl, hb.under?_eq]
  cases b.textAt k <;> rfl

end Value

/-! ## Taking settings out -/

theorem mapM_eq_ok {ε α β : Type} {f : α → Except ε β} {g : α → β} {as : List α} (h : ∀ a ∈ as, f a = .ok (g a)) :
    as.mapM f = .ok (as.map g) := by
  induction as with
  | nil => rfl
  | cons a as ih =>
    obtain ⟨ha, has⟩ := List.forall_mem_cons.1 h
    rw [List.mapM_cons, ha, ih has]
    rfl

/-- The texts of some settings that stand in one table. -/
theorem sectionOf_fits {v : Value} (h : v.Fits) (shape : String) {name : String} (ks : List Setting)
    (hks : ∀ k ∈ ks, k.table = name) (hne : ks ≠ []) :
    sectionOf name shape (ks.map Setting.key) v = .ok (ks.map fun k => (v.textAt k).getD "") := by
  obtain ⟨ms, rfl⟩ := h.isTable
  obtain ⟨k₀, hk₀⟩ := List.exists_mem_of_ne_nil ks hne
  have htable := h.tables k₀
  rw [hks k₀ hk₀] at htable
  rw [sectionOf]
  cases hx : Members.find? name ms with
  | none =>
    refine congrArg Except.ok (List.map_map.trans (List.map_congr_left fun k hk => ?_))
    have hentry : (Value.table ms).under? k = none := by rw [Value.under?, hks k hk, Value.get?, hx]; rfl
    rw [Value.textAt, hentry]
    rfl
  | some x =>
    obtain ⟨ns, rfl⟩ := htable x hx
    have hentry : ∀ k ∈ ks, Members.find? k.key ns = ((Value.table ms).textAt k).map .string := by
      intro k hk
      rw [← h.under?_eq, Value.under?, hks k hk, Value.get?, hx]
      rfl
    change List.mapM _ (ks.map Setting.key) = _
    rw [List.mapM_map]
    refine mapM_eq_ok fun k hk => ?_
    simp only [Function.comp_apply, hentry k hk]
    cases (Value.table ms).textAt k <;> rfl

/-- The settings in a layer that fits are its texts, and empty where it has none. -/
theorem ofValue_fits {v : Value} (h : v.Fits) : ∃ s, ofValue v = .ok s ∧ ∀ k, s.get k = (v.textAt k).getD "" := by
  have hauth : sectionOf "auth" "AuthConfig" ["token", "token_file"] v = .ok _ :=
    sectionOf_fits h "AuthConfig" [.token, .tokenFile] (by decide) (by decide)
  have hregistry : sectionOf "registry" "RegistryConfig" ["url"] v = .ok _ :=
    sectionOf_fits h "RegistryConfig" [.registryUrl] (by decide) (by decide)
  refine ⟨_, by rw [ofValue, hauth, hregistry]; rfl, fun k => ?_⟩
  cases k <;> rfl

/-- What stands elsewhere in a table does not matter. -/
theorem ofValue_congr {v v' : Value} (hv : ∃ ms, v = .table ms) (hv' : ∃ ms, v' = .table ms)
    (h : ∀ k : Setting, v'.get? k.table = v.get? k.table) : ofValue v' = ofValue v := by
  obtain ⟨ms, rfl⟩ := hv
  obtain ⟨ms', rfl⟩ := hv'
  have hauth : Members.find? "auth" ms' = Members.find? "auth" ms := h .token
  have hregistry : Members.find? "registry" ms' = Members.find? "registry" ms := h .registryUrl
  simp only [ofValue, sectionOf, hauth, hregistry]

end RegistryPublisher.Settings
