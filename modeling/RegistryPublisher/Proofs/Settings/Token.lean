import RegistryPublisher.Command.Target
import RegistryPublisher.Proofs.Settings.Variables
import RegistryPublisher.Proofs.Settings.Verbatim

/-!
# The token of the environment

- `OnlyToken w v`: nothing in the world `w` says anything about settings but a variable with the token `v`;
- `load_onlyToken`: the loaded token is `v` exactly when `v` is its own value in the short notation of variables; else
  loading gives the text that `v` stands for, or fails where it stands for something else than a text.
-/

namespace RegistryPublisher.Settings

open Variables (path? value put layer Verbatim)

/-- The variable that gives the token. -/
def tokenName : String := "MCP_PUBLISHER_AUTH__TOKEN"

/-- A variable says something about settings: the first key of its name is a table of settings. -/
def Configures (name : String) : Prop := ∃ keys, path? name = some keys ∧ ∃ k : Setting, keys.head? = some k.table

/-- There are no files with settings, and of all variables only the one of the token says something about settings. -/
structure OnlyToken (w : World) (v : String) : Prop where
  noUserFile : ∀ path, userFile? w = some path → w.hasPath path = false
  noProjectFile : w.hasPath projectFile = false
  token : ∃ before after, w.environment = before ++ (tokenName, v) :: after ∧
    ∀ x ∈ before ++ after, ¬ Configures x.1

/-! ## The layer of one variable -/

theorem foldl_put_get? {k : Setting} {env : Environment} (h : ∀ x ∈ env, ¬ Configures x.1) (l : Value) :
    (env.foldl put l).get? k.table = l.get? k.table := by
  induction env generalizing l with
  | nil => rfl
  | cons x env ih =>
    obtain ⟨hx, henv⟩ := List.forall_mem_cons.1 h
    rw [List.foldl_cons, ih henv]
    exact Variables.put_get? x (fun keys hkeys hk => hx ⟨keys, hkeys, k, hk⟩) l

theorem path?_tokenName : path? tokenName = some Setting.token.path := by decide +kernel

/-- Under the tables of settings, there is nothing but the value of the token. -/
theorem layer_get? {w : World} {v : String} (h : OnlyToken w v) (k : Setting) :
    (layer w.environment).get? k.table = (Value.nest Setting.token.path (value v)).get? k.table := by
  obtain ⟨before, after, henv, hother⟩ := h.token
  have hbefore := foldl_put_get? (k := k) fun x hx => hother x (List.mem_append_left _ hx)
  have hafter := foldl_put_get? (k := k) fun x hx => hother x (List.mem_append_right _ hx)
  have hput : ∀ l, put l (tokenName, v) = l.merge (Value.nest Setting.token.path (value v)) := by
    intro l
    rw [put, path?_tokenName]
  have hnest := Variables.nest_isLayer path?_tokenName v
  rw [Variables.layer_eq, henv, List.foldl_append, List.foldl_cons, hafter, hput, Value.get?_merge _ _ hnest, hbefore]
  cases (Value.nest Setting.token.path (value v)).get? k.table <;> rfl

/-- The settings of a value for the token. -/
theorem ofValue_token (x : Value) : ofValue (builtIn.merge (Value.nest Setting.token.path x)) =
    (text Setting.token.path x).map fun t => ⟨"", t, ""⟩ := by
  have hx : (Value.string "").merge x = x := by cases x <;> simp only [Value.merge]
  have hauth : builtIn.merge (Value.nest Setting.token.path x) =
      .table [("auth", .table [("token", x), ("token_file", .string "")]), ("registry", .table [("url", .string "")])] := by
    change builtIn.merge (.table [("auth", .table [("token", x)])]) = _
    simp [builtIn, Value.merge, Value.mergeMembers, Members.insert, Members.find?, hx]
  rw [hauth]
  cases x <;> rfl

/-- A value that is a text, and no other, is a token. -/
theorem text_eq_ok_iff {key : List String} {x : Value} {t : String} : text key x = .ok t ↔ x = .string t := by
  cases x <;> simp [text]

/-! ## Loading -/

/-- No other source has a say. -/
theorem load_eq {w : World} {v : String} (h : OnlyToken w v) :
    load w = (text Setting.token.path (value v)).map fun t => ⟨"", t, ""⟩ := by
  have hadd : ∀ path l, w.hasPath path = false → addFile w path l = .ok l := by
    intro path l hpath
    rw [addFile, locate, hpath]
    rfl
  have huser : addUserFile w builtIn = .ok builtIn := by
    rw [addUserFile]
    split
    · rfl
    · next path hpath => exact hadd path _ (h.noUserFile path hpath)
  have hlayers : layers w = .ok (builtIn.merge (layer w.environment)) := by
    rw [layers, huser]
    change (addFile w projectFile builtIn >>= _) = _
    rw [hadd _ _ h.noProjectFile]
    rfl
  have hnest := Variables.nest_isLayer path?_tokenName v
  have hlayer := Variables.layer_isLayer w.environment
  rw [load, hlayers, ← ofValue_token]
  exact ofValue_congr (Value.merge_isTable _ hnest.isTable) (Value.merge_isTable _ hlayer.isTable) fun k =>
    Value.get?_merge_congr hnest hlayer rfl (layer_get? h k)

/-- **A token of the environment** is used as it is exactly when it is its own value: it is loaded, and then every publication
carries it. A variable that stands for another text gives this text, one that stands for no text makes loading fail. -/
theorem load_onlyToken {w : World} {v : String} (h : OnlyToken w v) (hne : v ≠ "") :
    load w = (text Setting.token.path (value v)).map (fun t => ⟨"", t, ""⟩) ∧
    ((∃ s, load w = .ok s ∧ s.token? = some v ∧ ∀ flag, ∃ e, Target.forPublish w s flag = .ok e ∧ e.token = some v) ↔
      Verbatim v) := by
  refine ⟨load_eq h, ?_⟩
  rw [← Variables.value_eq_string_iff, load_eq h]
  constructor
  · rintro ⟨s, hs, htoken, -⟩
    cases ht : text Setting.token.path (value v) with
    | error e =>
      rw [ht] at hs
      cases hs
    | ok t =>
      rw [ht] at hs
      cases hs
      rw [token?] at htoken
      split at htoken
      · cases htoken
      · have hsame : t = v := Option.some.inj htoken
        rw [text_eq_ok_iff.1 ht, hsame]
  · intro hv
    have htoken : token? ⟨"", v, ""⟩ = some v := by
      rw [token?, if_neg fun he => hne (String.isEmpty_iff.1 he)]
    rw [text_eq_ok_iff.2 hv]
    refine ⟨⟨"", v, ""⟩, rfl, htoken, fun flag => ⟨⟨Target.registryUrl flag ⟨"", v, ""⟩ none, some v⟩, ?_, rfl⟩⟩
    rw [Target.forPublish, htoken]

/-- A world with no files, a home directory and a variable for the token. -/
def tokenWorld (v : String) : World where
  read _ := .error .notFound
  environment := [("HOME", "/h"), (tokenName, v), ("MCP_PUBLISHER_LOG", "debug")]
  directory := "/w"
  accountHome := some "/h"

theorem tokenWorld_onlyToken (v : String) : OnlyToken (tokenWorld v) v := by
  refine ⟨fun _ _ => rfl, rfl, [("HOME", "/h")], [("MCP_PUBLISHER_LOG", "debug")], rfl, ?_⟩
  have hpath : ∀ x ∈ [("HOME", "/h"), ("MCP_PUBLISHER_LOG", "debug")], ∀ k : Setting,
      (path? x.1).bind List.head? ≠ some k.table := by decide +kernel
  rintro x hx ⟨keys, hkeys, k, hk⟩
  refine hpath x hx k ?_
  rw [hkeys]
  exact hk

/-- A word is used as it is; quotes around it are lost. -/
theorem load_onlyToken_word :
    (∃ s, load (tokenWorld "ci-token") = .ok s ∧ s.token? = some "ci-token" ∧
      ∀ flag, ∃ e, Target.forPublish (tokenWorld "ci-token") s flag = .ok e ∧ e.token = some "ci-token") ∧
    load (tokenWorld "\"ci\"") = .ok ⟨"", "ci", ""⟩ ∧ ¬Verbatim "\"ci\"" := by
  have hword : value "ci-token" = .string "ci-token" := Value.text?_eq_some.1 (by decide +kernel)
  have hquoted : value "\"ci\"" = .string "ci" := Value.text?_eq_some.1 (by decide +kernel)
  obtain ⟨-, husable⟩ := load_onlyToken (tokenWorld_onlyToken "ci-token") (by decide)
  obtain ⟨hload, -⟩ := load_onlyToken (tokenWorld_onlyToken "\"ci\"") (by decide)
  refine ⟨husable.2 (Variables.value_eq_string_iff.1 hword), ?_, fun h => ?_⟩
  · rw [hload, hquoted]
    rfl
  · exact absurd (Value.string.inj (hquoted.symm.trans (Variables.value_eq_string_iff.2 h))) (by decide)

/-- A token of digits makes loading fail. -/
theorem load_onlyToken_digits :
    OnlyToken (tokenWorld "12345") "12345" ∧ "12345" ≠ "" ∧ Char.ofNat 0 ∉ "12345".toList ∧
    load (tokenWorld "12345") = .error (.wrongType "unsigned int \x6012345\x60" "a string" ["auth", "token"]) := by
  refine ⟨tokenWorld_onlyToken _, by decide, by decide, ?_⟩
  rw [load_eq (tokenWorld_onlyToken _)]
  decide +kernel

end RegistryPublisher.Settings
