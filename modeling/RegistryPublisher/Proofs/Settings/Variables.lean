import RegistryPublisher.Proofs.Settings.Layers
import RegistryPublisher.Proofs.Text.Scan

/-!
# The layer of the environment

- `value_sorted`: the value of a variable is sorted, whatever its text says;
- `Plain`: an environment whose variables give settings nothing but texts, each setting at most one;
- `layer_fits` and `layer_textAt`: the layer of such an environment, and the text it gives a setting;
- `path?_word` and `layer_set`: a variable whose name is one word changes nothing under other keys than that word.
-/

namespace RegistryPublisher.Settings.Variables

open Text (Scan)
open Text.Scan (Yields)

/-! ## Values -/

theorem list_all {α : Type} {P : α → Prop} {item : Scan α} (h : item.Yields P) (close : Char) :
    (list close item).Yields fun as => ∀ a ∈ as, P a := by
  have hfrom : ∀ fuel, (listFrom close item fuel).Yields fun as => ∀ a ∈ as, P a := by
    intro fuel
    induction fuel with
    | zero => exact .failure
    | succ fuel ih =>
      refine .orElse (.after fun _ => .pure fun _ hm => nomatch hm) (h.bind fun a ha => .orElse ?_ ?_)
      · exact .after fun _ => ih.bind fun as has => .pure (List.forall_mem_cons.2 ⟨ha, has⟩)
      · exact .after fun _ => .pure (List.forall_mem_singleton.2 ha)
  exact fun cs => hfrom (cs.length + 1) cs

theorem scalar_sorted (cs : List Char) : (scalar cs).Sorted := by
  unfold scalar
  split
  · exact .float _
  · split
    · exact .unsigned _
    · exact .signed _
    · exact .string _

theorem bracketed_sorted {value : Scan Value} (h : value.Yields Value.Sorted) (c : Option Char) :
    (bracketed value c).Yields Value.Sorted := by
  have hmember : (member value).Yields fun m => m.2.Sorted :=
    .after fun _ => .after fun _ => .after fun _ => .after fun _ => .after fun _ => h.bind fun v hv =>
      .after fun _ => .pure hv
  unfold bracketed
  split
  · exact .after fun _ => (list_all hmember _).bind fun ms hms => .pure (.ofList hms)
  · exact .after fun _ => (list_all h _).bind fun vs hvs => .pure (.array hvs)
  · exact .map fun _ s _ _ => .string s
  · exact .after fun _ => .after fun c => .after fun _ => .pure (.string _)
  · exact .after fun cs => .pure (scalar_sorted _)

theorem valueFrom_sorted (depth : Nat) : (valueFrom depth).Yields Value.Sorted := by
  induction depth with
  | zero => exact .failure
  | succ depth ih =>
    have hbool : ∀ (word : String) (b : Bool), Yields (do
        Scan.word word
        return Value.bool b) Value.Sorted := fun _ b => .after fun _ => .pure (.bool b)
    refine .after fun _ => Yields.bind (Q := Value.Sorted) ?_ fun v hv => .after fun _ => .pure hv
    exact .orElse (hbool "true" true) (.orElse (hbool "false" false) (.after (bracketed_sorted ih)))

/-- Whatever the text of a variable says, its value is sorted. -/
theorem value_sorted (s : String) : (value s).Sorted := by
  rw [value]
  cases h : (valueFrom (s.length + 1)).all s with
  | none => exact .string s
  | some v => exact (valueFrom_sorted _).all h

/-! ## Names -/

theorem path?_ne_nil {name : String} {keys : List String} (h : path? name = some keys) : keys ≠ [] := by
  unfold path? at h
  obtain ⟨rest, -, h⟩ := Option.bind_eq_some_iff.1 h
  dsimp only at h
  split at h
  · cases h
  · rw [← Option.some.inj h]
    simp [Text.splitAt, Text.splitChars_ne_nil]

theorem afterStart?_append (start cs : List Char) : afterStart? start (start ++ cs) = some cs := by
  induction start with
  | nil => rfl
  | cons c start ih => rw [List.cons_append, afterStart?, if_pos rfl, ih]

theorem pointed_eq_self {cs : List Char} (h : '_' ∉ cs) : pointed cs = cs := by
  induction cs with
  | nil => rfl
  | cons c cs ih =>
    obtain ⟨hne, hrest⟩ := List.ne_and_not_mem_of_not_mem_cons h
    rw [pointed.eq_2, ih hrest]
    rintro _ rfl _
    exact hne rfl

/-- A name that goes on with one word stands for one key: a word of letters and digits, or of any other characters but
underscores, points and blanks. -/
theorem path?_word {rest : String} (h : ∀ c ∈ rest.toList, c ≠ '_' ∧ c ≠ '.' ∧ Text.isBlank c = false)
    {keys : List String} (hkeys : path? (nameStart ++ rest) = some keys) :
    keys = [String.ofList (rest.toList.map Char.toLower)] := by
  have hstart : nameStart.toList.all (fun c => !Text.isBlank c) = true := by decide
  have hblank : ∀ c ∈ (nameStart ++ rest).toList, Text.isBlank c = false := by
    intro c hc
    rw [String.toList_append] at hc
    rcases List.mem_append.1 hc with hc | hc
    · simpa using List.all_eq_true.1 hstart c hc
    · exact (h c hc).2.2
  have hname : Text.trim (nameStart ++ rest) = nameStart ++ rest :=
    Text.trim_eq_self_of_ends (fun c hc => hblank c (List.mem_of_head? hc)) fun c hc =>
      hblank c (List.mem_of_getLast? hc)
  have hrest : Text.trim rest = rest :=
    Text.trim_eq_self_of_ends (fun c hc => (h c (List.mem_of_head? hc)).2.2) fun c hc =>
      (h c (List.mem_of_getLast? hc)).2.2
  have hpointed : pointed rest.toList = rest.toList := pointed_eq_self fun hc => (h _ hc).1 rfl
  have hsplit : Text.splitAt '.' rest = [rest] := Text.splitAt_eq_singleton fun hc => (h _ hc).2.1 rfl
  unfold path? at hkeys
  rw [hname, String.toList_append, afterStart?_append] at hkeys
  obtain ⟨_, hcs, hkeys⟩ := Option.bind_eq_some_iff.1 hkeys
  cases hcs
  dsimp only at hkeys
  rw [hpointed, String.ofList_toList, hrest, hsplit] at hkeys
  split at hkeys
  · cases hkeys
  · exact (Option.some.inj hkeys).symm

/-! ## One variable -/

-- proofs about layers never look into names and values
attribute [local irreducible] path? value

/-- Puts what a variable says over a layer; most variables say nothing. -/
def put (layer : Value) (v : String × String) : Value :=
  match path? v.1 with
  | some keys => layer.merge (.nest keys (value v.2))
  | none => layer

theorem layer_eq (env : Environment) : layer env = env.foldl put (.table []) := by
  rw [layer, List.foldl_filterMap]
  congr 1
  funext layer v
  obtain ⟨name, s⟩ := v
  simp only [put]
  cases path? name <;> rfl

/-- What a variable says is a layer. -/
theorem nest_isLayer {name : String} {keys : List String} (h : path? name = some keys) (s : String) :
    (Value.nest keys (value s)).IsLayer :=
  .nest (value_sorted s) (path?_ne_nil h)

theorem put_isLayer {l : Value} (h : l.IsLayer) (v : String × String) : (put l v).IsLayer := by
  rw [put]
  split
  · next keys hkeys => exact h.merge (nest_isLayer hkeys v.2)
  · exact h

/-- Layers that have the same under a key have so with a variable put over them. -/
theorem put_congr {k : String} {l l' : Value} (h : l'.get? k = l.get? k) (v : String × String) :
    (put l' v).get? k = (put l v).get? k := by
  rw [put, put]
  split
  · next keys hkeys => exact Value.get?_merge_congr (nest_isLayer hkeys v.2) (nest_isLayer hkeys v.2) h rfl
  · exact h

/-- A variable says nothing under other keys than its first one. -/
theorem put_get? {k : String} (v : String × String) (h : ∀ keys, path? v.1 = some keys → keys.head? ≠ some k)
    (l : Value) : (put l v).get? k = l.get? k := by
  rw [put]
  split
  · next keys hkeys =>
    have hnone : (Value.nest keys (value v.2)).get? k = none := by
      obtain ⟨a, keys, rfl⟩ := List.exists_cons_of_ne_nil (path?_ne_nil hkeys)
      rw [Value.get?_nest, if_neg fun ha => h _ hkeys (congrArg some ha)]
    rw [Value.get?_merge k l (nest_isLayer hkeys v.2), hnone, Value.overlaid_none]
  · rfl

/-! ## Plain environments -/

/-- What a variable for `keys` may hold: when it names a setting, a text that is read as it is; when it names neither a
setting nor anything around or inside one, any text. -/
def Harmless (keys : List String) (s : String) : Prop :=
  ∀ k : Setting, keys <+: k.path ∨ k.path <+: keys → keys = k.path ∧ value s = .string s

/-- The variables give settings nothing but the texts they hold, and no two of them name the same setting. -/
structure Plain (env : Environment) : Prop where
  harmless : ∀ v ∈ env, ∀ keys, path? v.1 = some keys → Harmless keys v.2
  once : ∀ k : Setting, ∀ v ∈ env, ∀ v' ∈ env, path? v.1 = some k.path → path? v'.1 = some k.path → v = v'

/-- The value of the variable that names a setting. -/
def named? (env : Environment) (k : Setting) : Option String :=
  (env.find? fun v => path? v.1 = some k.path).map Prod.snd

theorem named?_cons (v : String × String) (env : Environment) (k : Setting) :
    named? (v :: env) k = if path? v.1 = some k.path then some v.2 else named? env k := by
  by_cases h : path? v.1 = some k.path <;> simp [named?, h]

theorem named?_eq_some {env : Environment} {k : Setting} {s : String} (h : named? env k = some s) :
    ∃ v ∈ env, path? v.1 = some k.path ∧ v.2 = s := by
  obtain ⟨v, hv, rfl⟩ := Option.map_eq_some_iff.1 h
  have hname := List.find?_some hv
  exact ⟨v, List.mem_of_find?_eq_some hv, of_decide_eq_true hname, rfl⟩

/-- What one harmless variable says is a layer that fits. -/
theorem nest_under? {name : String} {keys : List String} (hkeys : path? name = some keys) {s : String}
    (h : Harmless keys s) (k : Setting) :
    (Value.nest keys (value s)).under? k = if keys = k.path then some (.string s) else none := by
  obtain ⟨a, keys, rfl⟩ := List.exists_cons_of_ne_nil (path?_ne_nil hkeys)
  rw [Value.under?, Value.get?_nest]
  by_cases ha : a = k.table
  · subst ha
    rw [if_pos rfl]
    cases keys with
    | nil =>
      -- the variable would stand for a whole table
      have hshort := (h k (Or.inl (List.prefix_append [k.table] [k.key]))).1
      cases hshort
    | cons b keys =>
      change (Value.nest (b :: keys) (value s)).get? k.key = _
      rw [Value.get?_nest]
      by_cases hb : b = k.key
      · subst hb
        have hlong := h k (Or.inr (List.prefix_append [k.table, k.key] keys))
        rw [if_pos rfl, if_pos hlong.1, ← hlong.2]
        cases hlong.1
        rfl
      · have hne : k.table :: b :: keys ≠ k.path := by
          intro e
          cases e
          exact hb rfl
        rw [if_neg hb, if_neg hne]
  · have hne : a :: keys ≠ k.path := by
      intro e
      cases e
      exact ha rfl
    rw [if_neg ha, if_neg hne]
    rfl

theorem nest_fits {name : String} {keys : List String} (hkeys : path? name = some keys) {s : String}
    (h : Harmless keys s) : (Value.nest keys (value s)).Fits := by
  refine ⟨(nest_isLayer hkeys s).isTable, fun k x hx => ?tables, fun k x hx => ?texts⟩
  case tables =>
    obtain ⟨a, keys, rfl⟩ := List.exists_cons_of_ne_nil (path?_ne_nil hkeys)
    rw [Value.get?_nest] at hx
    split at hx
    · next ha =>
      subst ha
      cases hx
      cases keys with
      | nil => cases (h k (Or.inl (List.prefix_append [k.table] [k.key]))).1
      | cons b keys => exact ⟨_, rfl⟩
    · cases hx
  case texts =>
    rw [nest_under? hkeys h] at hx
    split at hx
    · cases hx
      exact ⟨s, rfl⟩
    · cases hx

/-- One more variable: it gives its setting a text and leaves the others alone. -/
theorem put_fits {l : Value} (hl : l.Fits) {v : String × String} (h : ∀ keys, path? v.1 = some keys → Harmless keys v.2) :
    (put l v).Fits ∧ ∀ k : Setting, (put l v).textAt k = if path? v.1 = some k.path then some v.2 else l.textAt k := by
  rw [put]
  split
  · next keys hkeys =>
    have hfits := nest_fits hkeys (h keys hkeys)
    have hlayer := nest_isLayer hkeys v.2
    refine ⟨hl.merge hfits hlayer, fun k => ?_⟩
    rw [Value.textAt_merge l hfits hlayer, Value.textAt, nest_under? hkeys (h keys hkeys)]
    by_cases hk : keys = k.path
    · subst hk
      rw [if_pos rfl, if_pos hkeys]
      rfl
    · rw [if_neg hk, if_neg fun e => hk (Option.some.inj (hkeys.symm.trans e))]
      rfl
  · next hnone =>
    refine ⟨hl, fun k => ?_⟩
    rw [hnone]
    rfl

/-! ## All variables -/

theorem layer_isLayer (env : Environment) : (layer env).IsLayer :=
  layer_eq env ▸ List.foldlRecOn env put .empty fun _ h v _ => put_isLayer h v

/-- Each variable of a plain environment gives its setting a text and leaves the others alone. -/
theorem foldl_put_fits {env : Environment} (h : Plain env) : ∀ {l : Value}, l.Fits →
    (env.foldl put l).Fits ∧ ∀ k, (env.foldl put l).textAt k = (named? env k).or (l.textAt k) := by
  induction env with
  | nil => exact fun hl => ⟨hl, fun _ => rfl⟩
  | cons v env ih =>
    intro l hl
    have hrest : Plain env := ⟨fun w hw => h.harmless w (List.mem_cons_of_mem _ hw), fun k w hw w' hw' =>
      h.once k w (List.mem_cons_of_mem _ hw) w' (List.mem_cons_of_mem _ hw')⟩
    obtain ⟨hput, htext⟩ := put_fits hl (h.harmless v (List.mem_cons_self ..))
    obtain ⟨hfits, hall⟩ := ih hrest hput
    refine ⟨hfits, fun k => ?_⟩
    rw [List.foldl_cons, hall, htext, named?_cons]
    by_cases hk : path? v.1 = some k.path
    · rw [if_pos hk, if_pos hk]
      cases hn : named? env k with
      | none => rfl
      | some s =>
        -- a later variable of the same setting would be this one
        obtain ⟨w, hw, hkw, rfl⟩ := named?_eq_some hn
        rw [h.once k v (List.mem_cons_self ..) w (List.mem_cons_of_mem _ hw) hk hkw]
        rfl
    · rw [if_neg hk, if_neg hk]

theorem layer_fits {env : Environment} (h : Plain env) : (layer env).Fits :=
  layer_eq env ▸ (foldl_put_fits h .empty).1

/-- A plain environment gives a setting the value of the variable that names it. -/
theorem layer_textAt {env : Environment} (h : Plain env) (k : Setting) : (layer env).textAt k = named? env k := by
  rw [layer_eq, (foldl_put_fits h .empty).2]
  exact Option.or_none ..

/-! ## Other variables -/

/-- Layers that have the same under a key have so with all variables put over them. -/
theorem foldl_put_congr {k : String} (env : Environment) : ∀ {l l' : Value}, l'.get? k = l.get? k →
    (env.foldl put l').get? k = (env.foldl put l).get? k := by
  induction env with
  | nil => exact fun h => h
  | cons v env ih =>
    intro l l' h
    rw [List.foldl_cons, List.foldl_cons]
    exact ih (put_congr h v)

theorem foldl_put_set {name k : String} (h : ∀ keys, path? name = some keys → keys.head? ≠ some k) (s : String)
    (env : Environment) : ∀ l : Value, ((env.set name s).foldl put l).get? k = (env.foldl put l).get? k := by
  have hput : ∀ (s : String) (l : Value), (put l (name, s)).get? k = l.get? k := fun s l => put_get? (name, s) h l
  induction env with
  | nil =>
    intro l
    rw [Environment.set, List.foldl_cons]
    exact hput s l
  | cons v env ih =>
    intro l
    obtain ⟨n, x⟩ := v
    rw [Environment.set]
    split
    · next hn =>
      subst hn
      rw [List.foldl_cons, List.foldl_cons]
      exact foldl_put_congr env ((hput s l).trans (hput x l).symm)
    · rw [List.foldl_cons, List.foldl_cons]
      exact ih (put l (n, x))

/-- A variable may be set to anything if its name does not begin with a given key: under this key nothing changes. -/
theorem layer_set {name k : String} (h : ∀ keys, path? name = some keys → keys.head? ≠ some k) (env : Environment)
    (s : String) : (layer (env.set name s)).get? k = (layer env).get? k := by
  rw [layer_eq, layer_eq]
  exact foldl_put_set h s env _

end RegistryPublisher.Settings.Variables
