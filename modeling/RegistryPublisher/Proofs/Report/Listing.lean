import RegistryPublisher.Proofs.Text.Within
import RegistryPublisher.Report

/-!
# What a report lists

- `Reporter.Explains`: how an issue about the schema is explained, by its code (`remediation?_eq_some_iff`); all such
  issues are (`exists_explains_iff`), with the links (`Explains.links`);
- `Reporter.SetsApart`: the first issue about the schema is taken out of the others, with its explanation; there is one
  way to do so (`exists_setsApart`), which is the reporter's (`SetsApart.explained_listed`);
- `Reporter.report_lists`: what the console and the message say about an invalid descriptor.
-/

namespace RegistryPublisher

open Text

theorem Issue.isSchemaIssue_iff {i : Issue} : i.isSchemaIssue = true ↔ i.reference ∈ Schema.references :=
  List.contains_iff_mem

/-- Items are numbered by their positions, from one on. -/
theorem numbered_eq_mapIdx {α β : Type} (f : Nat → α → β) (items : List α) :
    numbered f items = items.mapIdx fun k a => f (k + 1) a := by
  refine List.ext_getElem? fun k => ?_
  rw [numbered, List.getElem?_map, List.getElem?_zipIdx, List.getElem?_mapIdx, Option.map_map]
  congr 1
  funext a
  exact congrArg (f · a) (Nat.add_comm 1 k)

/-! ## Single issues -/

namespace Issue

theorem block_eq (i : Issue) (number : Nat) : i.block number =
    toString number ++ ". [" ++ i.severity.name ++ "] " ++ i.path ++ " (" ++ i.kind.name ++ ")" ++ "\n   " ++ i.message ++
      "\n" ++ (if i.reference = "" then "" else "   Reference: " ++ i.reference ++ "\n") ++ "\n" := by
  simp only [block, heading, String.isEmpty_iff]

theorem entry_eq (i : Issue) (number : Nat) : i.entry number =
    toString number ++ ". [" ++ i.severity.name ++ "] " ++ i.path ++ " (" ++ i.kind.name ++ ")" ++ ": " ++ i.message ++
      (if i.reference = "" then "" else " (reference: " ++ i.reference ++ ")") := by
  simp only [entry, heading, String.isEmpty_iff]

end Issue

/-! ## The first issue about the schema -/

theorem Issue.findIdx?_eq_none {issues : List Issue} (h : ∀ i ∈ issues, i.reference ∉ Schema.references) :
    issues.findIdx? isSchemaIssue = none :=
  List.findIdx?_eq_none_iff.2 fun i hi => Bool.eq_false_iff.2 fun hs => h i hi (isSchemaIssue_iff.1 hs)

namespace Verdict

variable {v : Verdict}

theorem firstSchemaIssue_of_none (h : ∀ i ∈ v.issues, i.reference ∉ Schema.references) :
    v.firstSchemaIssue = none := by
  rw [firstSchemaIssue, Issue.findIdx?_eq_none h]

theorem firstSchemaIssue_of_first {before after : List Issue} {i : Issue} (hv : v.issues = before ++ i :: after)
    (earlier : ∀ b ∈ before, b.reference ∉ Schema.references) (hi : i.reference ∈ Schema.references) :
    v.firstSchemaIssue = some (before.length, i) := by
  have hfind : v.issues.findIdx? Issue.isSchemaIssue = some before.length := by
    rw [hv, List.findIdx?_append, Issue.findIdx?_eq_none earlier, List.findIdx?_cons,
      if_pos (Issue.isSchemaIssue_iff.2 hi)]
    simp
  have hget : v.issues[before.length]? = some i := by rw [hv]; simp
  simp only [firstSchemaIssue, hfind, hget, Option.map_some]

end Verdict

theorem MigrationLinks.within_phrase (l : MigrationLinks) : Within "Migration checklist: " l.phrase := by
  have hlabel : Within "Migration checklist: " "📋 Migration checklist: " := by decide
  unfold phrase
  exact ((hlabel.append _).append _).append _

namespace Reporter

variable {r : Reporter} {d : Descriptor} {i : Issue} {m : Remediation}

/-! ## Explanations -/

/-- How an issue about the schema is explained; its code alone decides which way. -/
inductive Explains (r : Reporter) (d : Descriptor) (i : Issue) : Remediation → Prop
  | fieldRequired (h : i.reference = Schema.fieldRequired) : Explains r d i (r.fieldRequired i)
  | versionDeprecated (h : i.reference = Schema.versionDeprecated) : Explains r d i (r.versionDeprecated i d.schema)
  | versionExtractionError (h : i.reference = Schema.versionExtractionError) :
      Explains r d i (r.versionExtractionError i)

theorem remediation?_eq_some_iff : r.remediation? i d = some m ↔ r.Explains d i m := by
  constructor
  · intro h
    unfold remediation? at h
    split at h
    · next hr => cases h; exact .fieldRequired hr
    split at h
    · next hr => cases h; exact .versionDeprecated hr
    split at h
    · next hr => cases h; exact .versionExtractionError hr
    · cases h
  · rintro (h | h | h) <;> unfold remediation?
    · rw [if_pos h]
    · rw [if_neg (by rw [h]; decide), if_pos h]
    · rw [if_neg (by rw [h]; decide), if_neg (by rw [h]; decide), if_pos h]

/-- The issues with an explanation are those about the schema. -/
theorem exists_explains_iff : (∃ m, r.Explains d i m) ↔ i.reference ∈ Schema.references := by
  simp only [Schema.references, List.mem_cons, List.not_mem_nil, or_false]
  constructor
  · rintro ⟨_, h | h | h⟩
    · exact Or.inl h
    · exact Or.inr (Or.inl h)
    · exact Or.inr (Or.inr h)
  · rintro (h | h | h)
    · exact ⟨_, .fieldRequired h⟩
    · exact ⟨_, .versionDeprecated h⟩
    · exact ⟨_, .versionExtractionError h⟩

theorem Explains.mem_references (h : r.Explains d i m) : i.reference ∈ Schema.references := exists_explains_iff.1 ⟨m, h⟩

/-- Every explanation ends with the links. -/
theorem Explains.links (h : r.Explains d i m) : Within r.links.phrase m.message := by
  cases h <;> exact (Within.refl _).prepend _

/-! ## The issue that is explained -/

/-- The first issue about the schema is set apart with its explanation, and the rest of the issues stay as they are. -/
inductive SetsApart (r : Reporter) (d : Descriptor) : List Issue → Option Remediation → List Issue → Prop
  | nothing {issues : List Issue} (h : ∀ i ∈ issues, i.reference ∉ Schema.references) : SetsApart r d issues none issues
  | first {before after : List Issue} {i : Issue} {m : Remediation}
      (earlier : ∀ b ∈ before, b.reference ∉ Schema.references) (h : r.Explains d i m) :
      SetsApart r d (before ++ i :: after) (some m) (before ++ after)

namespace SetsApart

variable {issues rest : List Issue} {x : Option Remediation}

/-- Issues before the first one about the schema stay where they are. -/
theorem prepend {before : List Issue} (hb : ∀ b ∈ before, b.reference ∉ Schema.references)
    (h : r.SetsApart d issues x rest) : r.SetsApart d (before ++ issues) x (before ++ rest) := by
  cases h with
  | nothing h => exact .nothing (List.forall_mem_append.2 ⟨hb, h⟩)
  | first earlier hm =>
    rw [← List.append_assoc, ← List.append_assoc]
    exact .first (List.forall_mem_append.2 ⟨hb, earlier⟩) hm

theorem cons (hi : i.reference ∉ Schema.references) (h : r.SetsApart d issues x rest) :
    r.SetsApart d (i :: issues) x (i :: rest) := by
  have hb : ∀ b ∈ [i], b.reference ∉ Schema.references := List.forall_mem_singleton.2 hi
  exact h.prepend hb

/-- An issue about the schema that no other one precedes is the one that is explained. -/
theorem head (h : r.Explains d i m) (issues : List Issue) : r.SetsApart d (i :: issues) (some m) issues := by
  have hb : ∀ b ∈ ([] : List Issue), b.reference ∉ Schema.references := nofun
  exact .first hb h

/-- Issues after the first one about the schema stay where they are. -/
theorem append (h : r.SetsApart d issues (some m) rest) (after : List Issue) :
    r.SetsApart d (issues ++ after) (some m) (rest ++ after) := by
  cases h with
  | first earlier hm =>
    rw [List.append_assoc, List.append_assoc]
    exact .first earlier hm

end SetsApart

theorem exists_setsApart (r : Reporter) (d : Descriptor) (issues : List Issue) :
    ∃ x rest, r.SetsApart d issues x rest := by
  induction issues with
  | nil => exact ⟨none, [], .nothing nofun⟩
  | cons i issues ih =>
    by_cases hi : i.reference ∈ Schema.references
    · obtain ⟨m, hm⟩ := exists_explains_iff.2 hi
      exact ⟨some m, issues, .head hm issues⟩
    · obtain ⟨x, rest, h⟩ := ih
      exact ⟨x, i :: rest, h.cons hi⟩

/-- What the console says before the list. -/
def heading (total : Nat) : String := "❌ Validation failed with " ++ toString total ++ " issue(s):\n\n"

/-- What the message says about the issues that are not explained. -/
def summary (total : Nat) (rest : List Issue) : String :=
  "validation failed with " ++ toString total ++ " issue(s): "
    ++ "; ".intercalate (rest.mapIdx fun k i => i.entry (k + 1))

theorem within_summary (total : Nat) (rest : List Issue) : Within "validation failed with " (summary total rest) := by
  unfold summary
  exact (((Within.refl "validation failed with ").append _).append _).append _

/-- The parts of the message: the explanation, and the summary of the rest unless there is none. -/
def parts (total : Nat) (x : Option Remediation) (rest : List Issue) : List String :=
  (x.map Remediation.message).toList ++ if rest = [] then [] else [summary total rest]

namespace SetsApart

variable {issues rest : List Issue} {x : Option Remediation}

/-- Something is explained when there is an issue about the schema. -/
theorem isSome_iff (h : r.SetsApart d issues x rest) :
    x.isSome = true ↔ ∃ i ∈ issues, i.reference ∈ Schema.references := by
  cases h with
  | nothing h => exact ⟨nofun, fun ⟨i, hi, hr⟩ => absurd hr (h i hi)⟩
  | first _ h => exact ⟨fun _ => ⟨_, List.mem_append_right _ List.mem_cons_self, h.mem_references⟩, fun _ => rfl⟩

theorem explains (h : r.SetsApart d issues (some m) rest) : ∃ i ∈ issues, r.Explains d i m := by
  cases h with
  | first _ h => exact ⟨_, List.mem_append_right _ List.mem_cons_self, h⟩

theorem eq_nil_iff (h : r.SetsApart d issues x rest) : issues = [] ↔ x = none ∧ rest = [] := by
  cases h with
  | nothing => simp
  | first => simp

/-- The reporter sets the same issue apart. -/
theorem explained_listed (h : r.SetsApart d issues x rest) (valid : Bool) :
    (r.explained ⟨valid, issues⟩ d).map Prod.snd = x ∧ r.listed ⟨valid, issues⟩ d = rest := by
  cases h with
  | nothing h =>
    have he : r.explained ⟨valid, issues⟩ d = none := by
      rw [explained, Verdict.firstSchemaIssue_of_none h]
      rfl
    simp [listed, he]
  | first earlier h =>
    next before after i m =>
    have he : r.explained ⟨valid, before ++ i :: after⟩ d = some (before.length, m) := by
      rw [explained, Verdict.firstSchemaIssue_of_first rfl earlier h.mem_references]
      simp [remediation?_eq_some_iff.2 h]
    refine ⟨by rw [he]; rfl, ?_⟩
    simp only [listed, he]
    rw [List.eraseIdx_append_of_length_le (Nat.le_refl _), Nat.sub_self, List.eraseIdx_cons_zero]

/-! ## The report -/

/-- The text on the console about an invalid descriptor. -/
theorem text_eq (h : r.SetsApart d issues x rest) : r.text ⟨false, issues⟩ d =
    (x.map Remediation.text).getD "" ++ heading issues.length ++
      String.join (rest.mapIdx fun k i => i.block (k + 1)) := by
  obtain ⟨rfl, rfl⟩ := h.explained_listed false
  rw [← numbered_eq_mapIdx Issue.block]
  unfold text heading
  dsimp only
  rw [if_neg Bool.false_ne_true]
  rcases r.explained ⟨false, issues⟩ d with - | ⟨n, m⟩
  · simp only [String.append_assoc]
    rw [Option.map_none, Option.map_none, Option.getD_none]
  · simp only [String.append_assoc]
    rw [Option.map_some, Option.map_some, Option.getD_some]

/-- The parts of the message about an invalid descriptor. -/
theorem messageParts_eq (h : r.SetsApart d issues x rest) :
    r.messageParts ⟨false, issues⟩ d = parts issues.length x rest := by
  obtain ⟨rfl, rfl⟩ := h.explained_listed false
  unfold messageParts parts summary
  rw [← numbered_eq_mapIdx Issue.entry]
  congr 1
  · rcases r.explained ⟨false, issues⟩ d with - | ⟨n, m⟩ <;> rfl
  · cases r.listed ⟨false, issues⟩ d with
    | nil => rfl
    | cons i rest => rfl

theorem parts_eq_nil_iff (h : r.SetsApart d issues x rest) : parts issues.length x rest = [] ↔ issues = [] := by
  rw [h.eq_nil_iff, parts, List.append_eq_nil_iff]
  cases x <;> simp

/-- The message about an invalid descriptor is made of its parts, and a text of its own if there are no issues. -/
theorem message_eq (h : r.SetsApart d issues x rest) : r.message ⟨false, issues⟩ d =
    if issues = [] then "validation failed" else "\n".intercalate (parts issues.length x rest) := by
  rw [message, h.messageParts_eq]
  split
  · next hparts => rw [if_pos (h.parts_eq_nil_iff.1 hparts)]
  · next hparts => rw [if_neg fun hnil => hparts (h.parts_eq_nil_iff.2 hnil)]

/-- Each part of the message says more than that the validation failed. -/
theorem part_says_more (h : r.SetsApart d issues x rest) {part : String} (hp : part ∈ parts issues.length x rest) :
    Within "Migration checklist: " part ∨ Within "validation failed with " part := by
  rcases List.mem_append.1 hp with hp | hp
  · cases x with
    | none => cases hp
    | some m =>
      obtain ⟨i, -, hm⟩ := h.explains
      exact Or.inl (List.mem_singleton.1 hp ▸ r.links.within_phrase.trans hm.links)
  · split at hp
    · cases hp
    · exact Or.inr (List.mem_singleton.1 hp ▸ within_summary _ _)

theorem message_generic_iff (h : r.SetsApart d issues x rest) :
    r.message ⟨false, issues⟩ d = "validation failed" ↔ issues = [] := by
  rw [h.message_eq]
  constructor
  · intro hm
    by_cases hnil : issues = []
    · exact hnil
    · rw [if_neg hnil] at hm
      obtain ⟨part, hp⟩ := List.exists_mem_of_ne_nil _ (mt h.parts_eq_nil_iff.1 hnil)
      rcases h.part_says_more hp with hw | hw
      · exact absurd (hm ▸ hw.intercalate hp "\n") (by decide)
      · exact absurd (hm ▸ hw.intercalate hp "\n") (by decide)
  · exact fun hnil => if_pos hnil

end SetsApart

/-- **What a report lists.** Of the issues of an invalid descriptor the first one about the schema, if there is any, is
set apart, and every other one stays in its place; there is one way to do so. The console shows the explanation, the
number of all issues, and a block for each issue that is left: its number, its severity, where it is and what kind it is,
under it the message, and the reference unless it is empty. The message is the explanation, and unless no issue is left,
the number of all issues with an entry for each one that is left, which says the same in one line; it has nothing to say
only when there are no issues. -/
theorem report_lists (r : Reporter) (d : Descriptor) (issues : List Issue) :
    let title (number : Nat) (i : Issue) : String :=
      toString number ++ ". [" ++ i.severity.name ++ "] " ++ i.path ++ " (" ++ i.kind.name ++ ")"
    let block (number : Nat) (i : Issue) : String := title number i ++ "\n   " ++ i.message ++ "\n" ++
      (if i.reference = "" then "" else "   Reference: " ++ i.reference ++ "\n") ++ "\n"
    let entry (number : Nat) (i : Issue) : String := title number i ++ ": " ++ i.message ++
      (if i.reference = "" then "" else " (reference: " ++ i.reference ++ ")")
    (∃ x rest, r.SetsApart d issues x rest) ∧
    ∀ x rest, r.SetsApart d issues x rest →
      (x.isSome = true ↔ ∃ i ∈ issues, i.reference ∈ Schema.references) ∧
      (r.report ⟨false, issues⟩ d).text =
        (x.map Remediation.text).getD "" ++
          ("❌ Validation failed with " ++ toString issues.length ++ " issue(s):\n\n") ++
          String.join (rest.mapIdx fun k i => block (k + 1) i) ∧
      (r.report ⟨false, issues⟩ d).error = some (if issues = [] then "validation failed" else
        "\n".intercalate ((x.map Remediation.message).toList ++ if rest = [] then [] else
          ["validation failed with " ++ toString issues.length ++ " issue(s): " ++
            "; ".intercalate (rest.mapIdx fun k i => entry (k + 1) i)])) ∧
      ((r.report ⟨false, issues⟩ d).error = some "validation failed" ↔ issues = []) := by
  intro title block entry
  have hblock : block = fun number i => i.block number := funext fun number => funext fun i => (i.block_eq number).symm
  have hentry : entry = fun number i => i.entry number := funext fun number => funext fun i => (i.entry_eq number).symm
  rw [hblock, hentry]
  refine ⟨exists_setsApart r d issues, fun x rest h => ⟨h.isSome_iff, h.text_eq, congrArg some h.message_eq, ?_⟩⟩
  exact Option.some_inj.trans h.message_generic_iff

end Reporter

end RegistryPublisher
