import Mathlib
import RegistryPublisher.Proofs.Json.Edited
import RegistryPublisher.Proofs.Json.TreeForm
import RegistryPublisher.Verdict

/-!
# Verdicts of newer registries

- `Issue.ofForm?` and `Verdict.ofForm?` are the issue and the verdict that a form holds; `Verdict.decode_eq_ok_iff`: a text
  is read as a verdict exactly when its form holds it;
- `decode_tolerant`: members with unknown keys change nothing, unknown names are read as such, and what may be missing is
  empty when it is.
-/

namespace RegistryPublisher

open Json (Form Accepts Tree)
open Json.Form (OneMore OneLess Renamed InItem)

/-! ## Issues -/

namespace Issue

/-- What the value of a member does to an issue. -/
def formValue? (key : String) (f : Form) : Option (Issue → Issue) :=
  if key = "type" then (f.name?.map IssueKind.ofName).map fun k i => { i with kind := k }
  else if key = "path" then f.text?.map fun s i => { i with path := s }
  else if key = "message" then f.text?.map fun s i => { i with message := s }
  else if key = "severity" then (f.name?.map IssueSeverity.ofName).map fun k i => { i with severity := k }
  else if key = "reference" then f.text?.map fun s i => { i with reference := s }
  else none

/-- The issue that a form holds. -/
def ofForm? : Form → Option Issue := shape.ofForm? formValue?

/-- The keys that issues have. -/
def keys : List String := ["type", "path", "message", "severity", "reference"]

theorem readsForms (depth : Nat) : shape.ReadsForms formValue? (depth + 1) := by
  refine ⟨?_, rfl⟩
  simp only [shape, List.forall_mem_cons, List.not_mem_nil, false_implies, implies_true, and_true]
  refine ⟨?type, ?path, ?message, ?severity, ?reference⟩
  case type => exact ((Accepts.name depth).map IssueKind.ofName).field "type" true _
  case path => exact Accepts.text.field "path" false _
  case message => exact Accepts.text.field "message" true _
  case severity => exact ((Accepts.name depth).map IssueSeverity.ofName).field "severity" true _
  case reference => exact Accepts.text.field "reference" false _

/-- What a value does to an issue, key by key. -/
theorem formValue?_cases {key : String} {f : Form} {put : Issue → Issue} (h : formValue? key f = some put) :
    (key = "type" ∧ ∃ k, put = fun i => { i with kind := k }) ∨
    (key = "path" ∧ ∃ s, put = fun i => { i with path := s }) ∨
    (key = "message" ∧ ∃ s, put = fun i => { i with message := s }) ∨
    (key = "severity" ∧ ∃ k, put = fun i => { i with severity := k }) ∨
    (key = "reference" ∧ ∃ s, put = fun i => { i with reference := s }) := by
  unfold formValue? at h
  split at h
  · obtain ⟨k, -, rfl⟩ := Option.map_eq_some_iff.1 h
    exact Or.inl ⟨‹_›, k, rfl⟩
  split at h
  · obtain ⟨x, -, rfl⟩ := Option.map_eq_some_iff.1 h
    exact Or.inr (Or.inl ⟨‹_›, x, rfl⟩)
  split at h
  · obtain ⟨x, -, rfl⟩ := Option.map_eq_some_iff.1 h
    exact Or.inr (Or.inr (Or.inl ⟨‹_›, x, rfl⟩))
  split at h
  · obtain ⟨k, -, rfl⟩ := Option.map_eq_some_iff.1 h
    exact Or.inr (Or.inr (Or.inr (Or.inl ⟨‹_›, k, rfl⟩)))
  split at h
  · obtain ⟨x, -, rfl⟩ := Option.map_eq_some_iff.1 h
    exact Or.inr (Or.inr (Or.inr (Or.inr ⟨‹_›, x, rfl⟩)))
  · cases h

theorem independent : Json.Shape.Independent formValue? := by
  refine ⟨fun h h' hne r => ?other, fun h h' r => ?same⟩
  case other =>
    rcases formValue?_cases h with ⟨rfl, x, rfl⟩ | ⟨rfl, x, rfl⟩ | ⟨rfl, x, rfl⟩ | ⟨rfl, x, rfl⟩ | ⟨rfl, x, rfl⟩ <;>
      rcases formValue?_cases h' with ⟨rfl, y, rfl⟩ | ⟨rfl, y, rfl⟩ | ⟨rfl, y, rfl⟩ | ⟨rfl, y, rfl⟩ | ⟨rfl, y, rfl⟩ <;>
      first | rfl | exact absurd rfl hne
  case same =>
    rcases formValue?_cases h with ⟨rfl, x, rfl⟩ | ⟨rfl, x, rfl⟩ | ⟨rfl, x, rfl⟩ | ⟨rfl, x, rfl⟩ | ⟨rfl, x, rfl⟩ <;>
      rcases formValue?_cases h' with ⟨hk, y, rfl⟩ | ⟨hk, y, rfl⟩ | ⟨hk, y, rfl⟩ | ⟨hk, y, rfl⟩ | ⟨hk, y, rfl⟩ <;>
      first | rfl | exact absurd hk (by decide)

section Edits

variable {f f' : Form} {i : Issue}

/-- A member with an unknown key changes nothing. -/
theorem ofForm?_oneMore (h : OneMore keys f f') (hi : ofForm? f = some i) : ofForm? f' = some i := by
  cases h with
  | put unknown g =>
    rw [ofForm?, Json.Shape.ofForm?] at hi ⊢
    rwa [Json.Shape.ofMembers?_insert unknown]

/-- An unknown type makes the kind unknown. -/
theorem ofForm?_renamed_type (h : Renamed "type" ["schema", "semantic"] f f') (hi : ofForm? f = some i) :
    ofForm? f' = some { i with kind := .unknown } := by
  cases h with
  | @rename _ _ _ name unknown =>
    obtain ⟨hschema, hsemantic⟩ := List.ne_and_not_mem_of_not_mem_cons unknown
    have hkind : IssueKind.ofName name = .unknown := by
      rw [IssueKind.ofName, if_neg hschema, if_neg fun h => hsemantic (List.mem_singleton.2 h)]
    have hvalue : formValue? "type" (.string (some name)) = some fun i => { i with kind := IssueKind.ofName name } := rfl
    rw [hkind] at hvalue
    exact Json.Shape.ofMembers?_replace independent (by decide) hvalue hi

/-- An unknown severity is read as such. -/
theorem ofForm?_renamed_severity (h : Renamed "severity" ["error", "warning"] f f') (hi : ofForm? f = some i) :
    ofForm? f' = some { i with severity := .unknown } := by
  cases h with
  | @rename _ _ _ name unknown =>
    obtain ⟨herror, hwarning⟩ := List.ne_and_not_mem_of_not_mem_cons unknown
    have hseverity : IssueSeverity.ofName name = .unknown := by
      rw [IssueSeverity.ofName, if_neg herror, if_neg fun h => hwarning (List.mem_singleton.2 h)]
    have hvalue : formValue? "severity" (.string (some name)) =
        some fun i => { i with severity := IssueSeverity.ofName name } := rfl
    rw [hseverity] at hvalue
    exact Json.Shape.ofMembers?_replace independent (by decide) hvalue hi

/-- Without its path an issue has an empty one. -/
theorem ofForm?_oneLess_path (h : OneLess "path" f f') (hi : ofForm? f = some i) :
    ofForm? f' = some { i with path := "" } := by
  cases h with
  | take g =>
    have hvalue : formValue? "path" (.string (some "")) = some fun i => { i with path := "" } := rfl
    exact Json.Shape.ofMembers?_remove independent (by decide) (by decide) hvalue rfl hi

/-- Without its reference an issue has an empty one. -/
theorem ofForm?_oneLess_reference (h : OneLess "reference" f f') (hi : ofForm? f = some i) :
    ofForm? f' = some { i with reference := "" } := by
  cases h with
  | take g =>
    have hvalue : formValue? "reference" (.string (some "")) = some fun i => { i with reference := "" } := rfl
    exact Json.Shape.ofMembers?_remove independent (by decide) (by decide) hvalue rfl hi

end Edits

end Issue

/-! ## Verdicts -/

namespace Verdict

/-- What the value of a member does to a verdict. -/
def formValue? (key : String) (f : Form) : Option (Verdict → Verdict) :=
  if key = "valid" then f.flag?.map fun b v => { v with valid := b }
  else if key = "issues" then (f.list? Issue.ofForm?).map fun is v => { v with issues := is }
  else none

/-- The verdict that a form holds. -/
def ofForm? : Form → Option Verdict := shape.ofForm? formValue?

/-- The keys that verdicts have. -/
def keys : List String := ["valid", "issues"]

theorem readsForms (depth : Nat) : shape.ReadsForms formValue? (depth + 3) := by
  refine ⟨?_, rfl⟩
  simp only [shape, List.forall_mem_cons, List.not_mem_nil, false_implies, implies_true, and_true]
  refine ⟨?valid, ?issues⟩
  case valid => exact Accepts.flag.field "valid" true _
  case issues =>
    -- the list and each issue in it take one bracket each
    have hissue : Accepts (Issue.shape.read (depth + 2)) Issue.ofForm? := .record (Issue.readsForms depth)
    have hlist : Accepts (Json.readList Issue.shape.read (depth + 3)) (Form.list? Issue.ofForm?) := .list hissue
    exact hlist.field "issues" false _

/-- A text is read as a verdict exactly when its form holds it. -/
theorem decode_eq_ok_iff {text : Bytes} {v : Verdict} :
    decode text = .ok v ↔ ∃ f : Form, f.Text text ∧ ofForm? f = some v :=
  (Accepts.record (readsForms 123)).decode

theorem formValue?_cases {key : String} {f : Form} {put : Verdict → Verdict} (h : formValue? key f = some put) :
    (key = "valid" ∧ ∃ b, put = fun v => { v with valid := b }) ∨
    (key = "issues" ∧ ∃ is, f.list? Issue.ofForm? = some is ∧ put = fun v => { v with issues := is }) := by
  unfold formValue? at h
  split at h
  · obtain ⟨b, -, rfl⟩ := Option.map_eq_some_iff.1 h
    exact Or.inl ⟨‹_›, b, rfl⟩
  split at h
  · obtain ⟨is, his, rfl⟩ := Option.map_eq_some_iff.1 h
    exact Or.inr ⟨‹_›, is, his, rfl⟩
  · cases h

theorem independent : Json.Shape.Independent formValue? := by
  refine ⟨fun h h' hne r => ?other, fun h h' r => ?same⟩
  case other =>
    rcases formValue?_cases h with ⟨rfl, x, rfl⟩ | ⟨rfl, x, -, rfl⟩ <;>
      rcases formValue?_cases h' with ⟨rfl, y, rfl⟩ | ⟨rfl, y, -, rfl⟩ <;> first | rfl | exact absurd rfl hne
  case same =>
    rcases formValue?_cases h with ⟨rfl, x, rfl⟩ | ⟨rfl, x, -, rfl⟩ <;>
      rcases formValue?_cases h' with ⟨hk, y, rfl⟩ | ⟨hk, y, -, rfl⟩ <;> first | rfl | exact absurd hk (by decide)

/-- The verdict with a change in the issue with the given index. -/
def withIssue (v : Verdict) (n : Nat) (u : Issue → Issue) : Verdict := { v with issues := v.issues.modify n u }

section Edits

variable {f f' : Form} {v : Verdict}

theorem ofForm?_oneMore (h : OneMore keys f f') (hv : ofForm? f = some v) : ofForm? f' = some v := by
  cases h with
  | put unknown g =>
    rw [ofForm?, Json.Shape.ofForm?] at hv ⊢
    rwa [Json.Shape.ofMembers?_insert unknown]

/-- Without its issues a verdict has none. -/
theorem ofForm?_oneLess_issues (h : OneLess "issues" f f') (hv : ofForm? f = some v) :
    ofForm? f' = some { v with issues := [] } := by
  cases h with
  | take g =>
    have hvalue : formValue? "issues" (.array []) = some fun v => { v with issues := [] } := rfl
    exact Json.Shape.ofMembers?_remove independent (by decide) (by decide) hvalue rfl hv

/-- An edit of a form in an array changes what is read in its place. -/
theorem mapM_edit {α β : Type} {g : α → Option β} {u : β → β} {a a' : α} (h : ∀ b, g a = some b → g a' = some (u b)) :
    ∀ {as cs : List α} {bs : List β}, (as ++ a :: cs).mapM g = some bs →
      (as ++ a' :: cs).mapM g = some (bs.modify as.length u) := by
  intro as
  induction as with
  | nil =>
    intro cs bs hbs
    obtain ⟨b, ws, hb, hws, rfl⟩ := Json.mapM_cons_eq_some.1 hbs
    exact Json.mapM_cons_eq_some.2 ⟨u b, ws, h b hb, hws, rfl⟩
  | cons c as ih =>
    intro cs bs hbs
    obtain ⟨b, ws, hb, hws, rfl⟩ := Json.mapM_cons_eq_some.1 hbs
    exact Json.mapM_cons_eq_some.2 ⟨b, _, hb, ih hws, rfl⟩

/-- An edit of an issue changes this issue. -/
theorem ofForm?_inItem {edit : Form → Form → Prop} {u : Issue → Issue}
    (hedit : ∀ {g g' i}, edit g g' → Issue.ofForm? g = some i → Issue.ofForm? g' = some (u i)) {n : Nat}
    (h : InItem "issues" n edit f f') (hv : ofForm? f = some v) : ofForm? f' = some (v.withIssue n u) := by
  cases h with
  | @item _ _ fs gs _ g' index h =>
    subst index
    obtain ⟨put, hput, hrecord⟩ := Json.Shape.value_in_record independent (by decide) hv
    obtain ⟨is, his, rfl⟩ : ∃ is, Form.list? Issue.ofForm? _ = some is ∧ put = fun v => { v with issues := is } := by
      rcases formValue?_cases hput with ⟨hk, -⟩ | ⟨-, his⟩
      · exact absurd hk (by decide)
      · exact his
    have hissues : is = v.issues := congrArg Verdict.issues hrecord
    subst hissues
    have hlist : Form.list? Issue.ofForm? (.array (fs ++ g' :: gs)) = some (v.issues.modify fs.length u) :=
      mapM_edit (fun _ => hedit h) his
    have hvalue : formValue? "issues" (.array (fs ++ g' :: gs)) =
        some fun w => { w with issues := v.issues.modify fs.length u } := by
      change Option.map _ (Form.list? Issue.ofForm? _) = _
      rw [hlist]
      rfl
    exact Json.Shape.ofMembers?_replace independent (by decide) hvalue hv

end Edits

/-- A change that leaves the references alone leaves the first issue about the schema in its place. -/
theorem firstSchemaIssue_withIssue {u : Issue → Issue} (hu : ∀ i, (u i).reference = i.reference) (v : Verdict) (n : Nat) :
    (v.withIssue n u).firstSchemaIssue = v.firstSchemaIssue.map fun (m, i) => (m, if m = n then u i else i) := by
  have hfind : ∀ (is : List Issue) (n : Nat),
      (is.modify n u).findIdx? Issue.isSchemaIssue = is.findIdx? Issue.isSchemaIssue := by
    intro is
    induction is with
    | nil => exact fun n => by rw [List.modify_nil]
    | cons i is ih =>
      intro n
      cases n with
      | zero =>
        have hsame : (u i).isSchemaIssue = i.isSchemaIssue := by rw [Issue.isSchemaIssue, hu, Issue.isSchemaIssue]
        rw [List.modify_zero_cons, List.findIdx?_cons, List.findIdx?_cons, hsame]
      | succ n => rw [List.modify_succ_cons, List.findIdx?_cons, List.findIdx?_cons, ih]
  rw [firstSchemaIssue, firstSchemaIssue, withIssue]
  simp only [hfind]
  cases v.issues.findIdx? Issue.isSchemaIssue with
  | none => rfl
  | some m =>
    simp only [List.getElem?_modify]
    cases v.issues[m]? with
    | none => rfl
    | some i =>
      by_cases hm : m = n
      · simp only [hm, if_true, Option.map_eq_map, Option.map_some]
      · simp only [if_neg hm, if_neg (Ne.symm hm), Option.map_eq_map, Option.map_some]

/-- **Verdicts of newer registries** are read as far as they are known. The text of a verdict has a form. In another text,
whose form is an edited one:
- a member with a key that verdicts or issues do not have changes nothing, whatever its value is;
- without its issues a verdict has none, and without its path or its reference an issue has an empty one;
- an issue with a type or a severity that is not known is the same issue with an unknown kind or severity, and the first
  issue about the schema is still the same one. -/
theorem decode_tolerant {text : Bytes} {v : Verdict} (hread : decode text = .ok v) :
    (∃ f : Form, f.Text text) ∧ ∀ (f f' : Form) (text' : Bytes), f.Text text → f'.Text text' →
      (OneMore keys f f' → decode text' = .ok v) ∧
      (OneLess "issues" f f' → decode text' = .ok { v with issues := [] }) ∧
      ∀ n, (InItem "issues" n (OneMore Issue.keys) f f' → decode text' = .ok v) ∧
        (InItem "issues" n (OneLess "path") f f' → decode text' = .ok (v.withIssue n fun i => { i with path := "" })) ∧
        (InItem "issues" n (OneLess "reference") f f' →
          decode text' = .ok (v.withIssue n fun i => { i with reference := "" })) ∧
        (InItem "issues" n (Renamed "type" ["schema", "semantic"]) f f' → ∃ v', decode text' = .ok v' ∧
          v' = v.withIssue n (fun i => { i with kind := .unknown }) ∧ v'.firstSchemaIssue =
            v.firstSchemaIssue.map fun (m, i) => (m, if m = n then { i with kind := .unknown } else i)) ∧
        (InItem "issues" n (Renamed "severity" ["error", "warning"]) f f' → ∃ v', decode text' = .ok v' ∧
          v' = v.withIssue n (fun i => { i with severity := .unknown }) ∧ v'.firstSchemaIssue =
            v.firstSchemaIssue.map fun (m, i) => (m, if m = n then { i with severity := .unknown } else i)) := by
  obtain ⟨f₀, htext₀, hv₀⟩ := decode_eq_ok_iff.1 hread
  refine ⟨⟨f₀, htext₀⟩, fun f f' text' htext htext' => ?_⟩
  have hv : ofForm? f = some v := by
    rw [htext₀.unique htext]
    exact hv₀
  have hedited : ∀ {v'}, ofForm? f' = some v' → decode text' = .ok v' := fun h => decode_eq_ok_iff.2 ⟨f', htext', h⟩
  refine ⟨fun h => hedited (ofForm?_oneMore h hv), fun h => hedited (ofForm?_oneLess_issues h hv), fun n => ?_⟩
  refine ⟨fun h => ?member, fun h => ?path, fun h => ?reference, fun h => ?type, fun h => ?severity⟩
  case member =>
    have hsame : v.withIssue n (fun i => i) = v := by
      rw [withIssue, show (fun i : Issue => i) = id from rfl, List.modify_id]
    rw [← hsame]
    exact hedited (ofForm?_inItem Issue.ofForm?_oneMore h hv)
  case path => exact hedited (ofForm?_inItem Issue.ofForm?_oneLess_path h hv)
  case reference => exact hedited (ofForm?_inItem Issue.ofForm?_oneLess_reference h hv)
  case type =>
    refine ⟨_, hedited (ofForm?_inItem Issue.ofForm?_renamed_type h hv), rfl, ?_⟩
    exact firstSchemaIssue_withIssue (u := fun i => { i with kind := .unknown }) (fun _ => rfl) v n
  case severity =>
    refine ⟨_, hedited (ofForm?_inItem Issue.ofForm?_renamed_severity h hv), rfl, ?_⟩
    exact firstSchemaIssue_withIssue (u := fun i => { i with severity := .unknown }) (fun _ => rfl) v n

/-- An issue of the given type. -/
def issueTree (type : String) : Tree :=
  .object [("type", .string type), ("message", .string "m"), ("severity", .string "error")]

/-- A verdict with one issue of the given type, and with more members. -/
def verdictTree (type : String) (more : List (String × Tree)) : Tree :=
  .object (("valid", .bool false) :: ("issues", .array [issueTree type]) :: more)

/-- A verdict with one issue. -/
def knownText : Bytes := Utf8.encode
  "\x7b\"valid\":false,\"issues\":[\x7b\"type\":\"schema\",\"message\":\"m\",\"severity\":\"error\"\x7d]\x7d"

/-- The same with a member that is not known. -/
def widerText : Bytes := Utf8.encode
  "\x7b\"valid\":false,\"issues\":[\x7b\"type\":\"schema\",\"message\":\"m\",\"severity\":\"error\"\x7d],\"x\":[0]\x7d"

/-- The same with a type that is not known. -/
def lintText : Bytes := Utf8.encode
  "\x7b\"valid\":false,\"issues\":[\x7b\"type\":\"lint\",\"message\":\"m\",\"severity\":\"error\"\x7d]\x7d"

theorem parse_knownText : Tree.parse knownText = .ok (verdictTree "schema" []) := by cbv

theorem parse_widerText :
    Tree.parse widerText = .ok (verdictTree "schema" [("x", .array [.number ⟨false, [0], none, none⟩])]) := by cbv

theorem parse_lintText : Tree.parse lintText = .ok (verdictTree "lint" []) := by cbv

/-- The member is passed over, and only the kind of the issue changes. -/
theorem decode_tolerant_lint : ∃ v i, decode knownText = .ok v ∧ v.issues = [i] ∧ i.kind = .schema ∧
    decode widerText = .ok v ∧ decode lintText = .ok (v.withIssue 0 fun i => { i with kind := .unknown }) := by
  have hknown := Tree.text_of_parse parse_knownText
  have hwider := Tree.text_of_parse parse_widerText
  have hlint := Tree.text_of_parse parse_lintText
  have hread : decode knownText = .ok ⟨false, [⟨.schema, "", "m", .error, ""⟩]⟩ :=
    decode_eq_ok_iff.2 ⟨_, hknown, rfl⟩
  obtain ⟨-, hedits⟩ := decode_tolerant hread
  refine ⟨_, _, hread, rfl, rfl, ?wider, ?lint⟩
  case wider =>
    obtain ⟨hmore, -⟩ := hedits _ _ _ hknown hwider
    exact hmore (@OneMore.put keys [(some "valid", .bool false), (some "issues", .array [(issueTree "schema").form])] []
      "x" (by decide) _)
  case lint =>
    obtain ⟨-, -, hissue⟩ := hedits _ _ _ hknown hlint
    obtain ⟨-, -, -, htype, -⟩ := hissue 0
    have hrenamed : Renamed "type" ["schema", "semantic"] (issueTree "schema").form (issueTree "lint").form :=
      @Renamed.rename "type" _ [] [(some "message", .string (some "m")), (some "severity", .string (some "error"))] _
        "lint" (by decide)
    obtain ⟨_, hdecode, rfl, -⟩ := htype (@InItem.item _ _ _ [(some "valid", .bool false)] [] [] [] _ _ rfl hrenamed)
    exact hdecode

end Verdict

end RegistryPublisher
