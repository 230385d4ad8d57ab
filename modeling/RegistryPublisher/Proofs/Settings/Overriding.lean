import RegistryPublisher.Proofs.Json.Tree
import RegistryPublisher.Proofs.Settings.Token

/-!
# Variables over files

- `Variables.Says`: a variable gives a setting a text;
- `Variables.foldl_put_under?`: what variables give a setting stays in their layer, unless one that names the whole table
  of the setting holds no table;
- `ofValue_under?`: what the merged layers have for a setting is its text, if there are settings;
- `load_of_variable`: so a setting that a variable names comes from the variables, whatever the files say.
-/

namespace RegistryPublisher.Settings

variable {k : Setting} {x : Value} {s : String}

/-! ## Merged values -/

namespace Value

/-- A merged value that is a text is the upper one. -/
theorem eq_of_merge_eq_string {old : Value} (h : old.merge x = string s) : x = string s := by
  cases x with
  | table ms =>
    obtain ⟨ns, hns⟩ := merge_isTable old ⟨ms, rfl⟩
    cases hns.symm.trans h
  | _ => simpa only [merge] using h

theorem overlaid_some (o : Option Value) (x : Value) : ∃ y, overlaid o (some x) = some y ∧ ∀ s, y = string s → x = string s := by
  cases o with
  | none => exact ⟨x, rfl, fun _ h => h⟩
  | some o => exact ⟨o.merge x, rfl, fun _ h => eq_of_merge_eq_string h⟩

theorem nest_path (k : Setting) (x : Value) : (nest k.path x).under? k = some x := by
  rw [under?, Setting.path, get?_nest, if_pos rfl, Option.bind_some, get?_nest, if_pos rfl]
  rfl

/-- A layer that has something for a setting has a table for it. -/
theorem isTable_of_under? {v : Value} (h : v.under? k = some x) : ∀ y, v.get? k.table = some y → ∃ ns, y = table ns := by
  intro y hy
  rw [under?, hy, Option.bind_some] at h
  cases y with
  | table ns => exact ⟨ns, rfl⟩
  | _ => cases h

end Value

namespace Variables

-- proofs about layers never look into names and values
attribute [local irreducible] path? value

/-! ## What variables say -/

/-- What a variable has for a setting, under its own name or inside a table. -/
def at? (k : Setting) (v : String × String) : Option Value :=
  (path? v.1).bind fun keys => (Value.nest keys (value v.2)).under? k

/-- A variable gives a setting a text. -/
def Says (v : String × String) (k : Setting) (s : String) : Prop := at? k v = some (.string s)

/-- If a variable names the whole table of a setting, it holds a table. -/
def KeepsTable (k : Setting) (v : String × String) : Prop := path? v.1 = some [k.table] → ∃ ms, value v.2 = .table ms

theorem at?_of_path {v : String × String} (h : path? v.1 = some k.path) : at? k v = some (value v.2) := by
  rw [at?, h]
  exact Value.nest_path k _

theorem keepsTable_of_path {v : String × String} (h : path? v.1 = some k.path) : KeepsTable k v := by
  intro htable
  cases Option.some.inj (h.symm.trans htable)

/-- One more variable is merged with what there was for a setting. -/
theorem put_under? {v : String × String} (h : KeepsTable k v) (l : Value) :
    (put l v).under? k = Value.overlaid (l.under? k) (at? k v) := by
  rw [put, at?]
  split
  · next keys hkeys =>
    rw [hkeys, Option.bind_some]
    refine Value.under?_overlaid l (nest_isLayer hkeys v.2) fun y hy => ?_
    obtain ⟨a, keys, rfl⟩ := List.exists_cons_of_ne_nil (path?_ne_nil hkeys)
    rw [Value.get?_nest] at hy
    split at hy
    · next ha =>
      cases hy
      subst ha
      cases keys with
      | nil => exact h hkeys
      | cons b keys => exact ⟨_, rfl⟩
    · cases hy
  · next hnone =>
    rw [hnone]
    exact (Value.overlaid_none _).symm

/-- A setting that has something keeps it, or a variable gives it something else. -/
theorem foldl_put_under? {env : Environment} (h : ∀ u ∈ env, KeepsTable k u) {l : Value} (hl : l.under? k = some x) :
    ∃ y, (env.foldl put l).under? k = some y ∧ ∀ s, y = .string s → x = .string s ∨ ∃ u ∈ env, Says u k s := by
  induction env generalizing l x with
  | nil => exact ⟨x, hl, fun _ hs => Or.inl hs⟩
  | cons v env ih =>
    obtain ⟨hv, henv⟩ := List.forall_mem_cons.1 h
    have hput := put_under? hv l
    rw [hl] at hput
    cases hat : at? k v with
    | none =>
      rw [hat, Value.overlaid_none] at hput
      obtain ⟨y, hy, hsaid⟩ := ih henv hput
      refine ⟨y, hy, fun s hs => (hsaid s hs).imp_right ?_⟩
      rintro ⟨u, hu, hsays⟩
      exact ⟨u, List.mem_cons_of_mem v hu, hsays⟩
    | some z =>
      rw [hat] at hput
      obtain ⟨z', hz', hstring⟩ := Value.overlaid_some (some x) z
      obtain ⟨y, hy, hsaid⟩ := ih henv (hput.trans hz')
      refine ⟨y, hy, fun s hs => Or.inr ?_⟩
      rcases hsaid s hs with hz | ⟨u, hu, hsays⟩
      · exact ⟨v, List.mem_cons_self, hat.trans (congrArg some (hstring s hz))⟩
      · exact ⟨u, List.mem_cons_of_mem v hu, hsays⟩

/-- The layer of the variables has something for a setting that one of them names, and a text only from them. -/
theorem layer_under? {before after : Environment} {v : String × String} (hv : path? v.1 = some k.path)
    (h : ∀ u ∈ after, KeepsTable k u) :
    ∃ y, (layer (before ++ v :: after)).under? k = some y ∧ ∀ s, y = .string s → ∃ u ∈ v :: after, Says u k s := by
  have hput := put_under? (keepsTable_of_path hv) (before.foldl put (.table []))
  rw [at?_of_path hv] at hput
  obtain ⟨z, hz, hstring⟩ := Value.overlaid_some ((before.foldl put (.table [])).under? k) (value v.2)
  obtain ⟨y, hy, hsaid⟩ := foldl_put_under? h (hput.trans hz)
  refine ⟨y, ?_, fun s hs => ?_⟩
  · rw [layer_eq, List.foldl_append, List.foldl_cons]
    exact hy
  · rcases hsaid s hs with hz | ⟨u, hu, hsays⟩
    · exact ⟨v, List.mem_cons_self, (at?_of_path hv).trans (congrArg some (hstring s hz))⟩
    · exact ⟨u, List.mem_cons_of_mem v hu, hsays⟩

end Variables

/-! ## Taking settings out -/

theorem getElem?_of_mapM {ε α β : Type} {f : α → Except ε β} {as : List α} {bs : List β} (h : as.mapM f = .ok bs)
    {n : Nat} {a : α} (ha : as[n]? = some a) : ∃ b, bs[n]? = some b ∧ f a = .ok b := by
  induction as generalizing bs n with
  | nil => cases ha
  | cons a' as ih =>
    rw [List.mapM_cons] at h
    obtain ⟨b, hb, h⟩ := Json.bind_eq_ok_iff.1 h
    obtain ⟨bs', hbs, h⟩ := Json.bind_eq_ok_iff.1 h
    cases h
    cases n with
    | zero =>
      cases ha
      exact ⟨b, rfl, hb⟩
    | succ n => exact ih hbs ha

/-- What stands in the table of a section is one of its texts. -/
theorem sectionOf_under? {v : Value} {shape : String} {fields texts : List String}
    (h : sectionOf k.table shape fields v = .ok texts) {n : Nat} (hn : fields[n]? = some k.key) (hx : v.under? k = some x) :
    ∃ t, texts[n]? = some t ∧ x = .string t := by
  obtain ⟨y, hy, hentry⟩ := Option.bind_eq_some_iff.1 hx
  obtain ⟨ns, rfl⟩ := Value.isTable_of_under? hx y hy
  cases v with
  | table ms =>
    rw [sectionOf, show Members.find? k.table ms = some (.table ns) from hy] at h
    obtain ⟨t, ht, htext⟩ := getElem?_of_mapM h hn
    rw [show Members.find? k.key ns = some x from hentry] at htext
    exact ⟨t, ht, text_eq_ok_iff.1 htext⟩
  | _ => cases hy

/-- What the merged layers have for a setting is its text, if there are settings at all. -/
theorem ofValue_under? {v : Value} {settings : Settings} (h : ofValue v = .ok settings) (hx : v.under? k = some x) :
    x = .string (settings.get k) := by
  obtain ⟨auth, hauth, h⟩ := Json.bind_eq_ok_iff.1 h
  obtain ⟨registry, hregistry, h⟩ := Json.bind_eq_ok_iff.1 h
  cases h
  cases k with
  | registryUrl =>
    obtain ⟨t, ht, rfl⟩ := @sectionOf_under? .registryUrl _ _ _ _ _ hregistry 0 rfl hx
    simp [get, List.headD_eq_head?_getD, List.head?_eq_getElem?, ht]
  | token =>
    obtain ⟨t, ht, rfl⟩ := @sectionOf_under? .token _ _ _ _ _ hauth 0 rfl hx
    simp [get, List.headD_eq_head?_getD, List.head?_eq_getElem?, ht]
  | tokenFile =>
    obtain ⟨t, ht, rfl⟩ := @sectionOf_under? .tokenFile _ _ _ _ _ hauth 1 rfl hx
    simp [get, ht]

/-! ## Loading -/

/-- The variables are the topmost layer. -/
theorem layers_eq_ok {w : World} {v : Value} (h : layers w = .ok v) :
    ∃ below : Value, v = below.merge (Variables.layer w.environment) := by
  obtain ⟨user, -, h⟩ := Json.bind_eq_ok_iff.1 h
  obtain ⟨project, -, h⟩ := Json.bind_eq_ok_iff.1 h
  exact ⟨project, (Except.ok.inj h).symm⟩

/-- A setting that a variable names comes from the variables, unless a later one replaces its whole table. -/
theorem load_of_variable {w : World} {before after : Environment} {v : String × String}
    (henv : w.environment = before ++ v :: after) (hv : Variables.path? v.1 = some k.path)
    (hafter : ∀ u ∈ after, Variables.KeepsTable k u) {settings : Settings} (h : load w = .ok settings) :
    ∃ u ∈ v :: after, Variables.Says u k (settings.get k) := by
  obtain ⟨merged, hlayers, h⟩ := Json.bind_eq_ok_iff.1 h
  obtain ⟨below, rfl⟩ := layers_eq_ok hlayers
  rw [henv] at h
  obtain ⟨y, hy, hsaid⟩ := @Variables.layer_under? k before after v hv hafter
  have hover := Value.under?_overlaid below (Variables.layer_isLayer _) (Value.isTable_of_under? hy)
  rw [hy] at hover
  obtain ⟨z, hz, hstring⟩ := Value.overlaid_some (below.under? k) y
  exact hsaid _ (hstring _ (ofValue_under? h (hover.trans hz)))

end RegistryPublisher.Settings
