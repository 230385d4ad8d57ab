import RegistryPublisher.Proofs.Settings.Merge
import RegistryPublisher.Proofs.Text.Scan
import RegistryPublisher.Toml.Document

/-!
# Documents are sorted

- `Table.Sorted`: the keys of a table that is being read increase, and so on inside;
- `Table.Keeps`: what opens tables and gives keys their values keeps them sorted;
- `decode?_isLayer`: a document is read as a sorted table.
-/

namespace RegistryPublisher.Toml

open Text (Scan)
open Text.Scan (Yields)
open Settings (Value)

/-! ## Tables -/

/-- The keys of every table increase. -/
inductive Node.Sorted : Node → Prop
  | value {v : Value} (h : v.Sorted) : Sorted (value v)
  | table {origin : Origin} {ms : List (String × Node)} (ordered : Members.Ordered ms) (h : ∀ m ∈ ms, Sorted m.2) :
      Sorted (table origin ms)
  | list {tables : List (List (String × Node))} (h : ∀ ms ∈ tables, Sorted (table .header ms)) : Sorted (list tables)

namespace Table

/-- The keys increase, in every table inside too. -/
structure Sorted (t : Table) : Prop where
  ordered : Members.Ordered t.members
  members : ∀ m ∈ t.members, m.2.Sorted

variable {t : Table} {key : String}

theorem Sorted.node (h : t.Sorted) (origin : Origin) : (Node.table origin t.members).Sorted :=
  .table h.ordered h.members

theorem Sorted.of_node {origin origin' : Origin} {ms : List (String × Node)} (h : (Node.table origin ms).Sorted) :
    Sorted ⟨origin', ms⟩ := by
  cases h with
  | table ordered h => exact ⟨ordered, h⟩

theorem Sorted.nil (origin : Origin) : Sorted ⟨origin, []⟩ := ⟨.nil, fun _ hm => nomatch hm⟩

theorem Sorted.put {n : Node} (h : t.Sorted) (hn : n.Sorted) : (t.put key n).Sorted := by
  refine ⟨Members.ordered_insert h.ordered, fun m hm => ?_⟩
  rcases Members.mem_insert hm with rfl | hm
  · exact hn
  · exact h.members m hm

theorem Sorted.find? {n : Node} (h : t.Sorted) (hn : Members.find? key t.members = some n) : n.Sorted :=
  h.members (key, n) (Members.mem_of_find?_eq_some hn)

/-- A change that gives sorted tables for sorted tables. -/
def Keeps (f : Table → Option Table) : Prop := ∀ t t', t.Sorted → f t = some t' → t'.Sorted

/-- A change is carried out in the table that a path leads to; the tables on the way stay sorted. -/
theorem Keeps.change {f : Table → Option Table} (hf : Keeps f) (made : Origin) (path : List String) :
    Keeps (change made f path) := by
  induction path with
  | nil => exact hf
  | cons key path ih =>
    intro t t' ht h
    rw [Table.change] at h
    split at h
    · obtain ⟨inner, hinner, h⟩ := Option.bind_eq_some_iff.1 h
      cases h
      exact ht.put ((ih _ _ (.nil made) hinner).node _)
    · next origin ms hfound =>
      split at h
      · cases h
      · obtain ⟨inner, hinner, h⟩ := Option.bind_eq_some_iff.1 h
        cases h
        exact ht.put ((ih _ _ (.of_node (ht.find? hfound)) hinner).node _)
    · next ms tables hfound =>
      obtain ⟨inner, hinner, h⟩ := Option.bind_eq_some_iff.1 h
      cases h
      cases ht.find? hfound with
      | list hlist =>
        obtain ⟨hms, htables⟩ := List.forall_mem_cons.1 hlist
        have hchanged := (ih _ _ (.of_node hms) hinner).node .header
        exact ht.put (.list (List.forall_mem_cons.2 ⟨hchanged, htables⟩))
    · cases h

theorem Keeps.defineHere (key : String) : Keeps (defineHere key) := by
  intro t t' ht h
  rw [Table.defineHere] at h
  split at h
  · cases h
    exact ht.put ((Sorted.nil .header).node .header)
  · next ms hfound =>
    cases h
    have hms : Sorted ⟨.header, ms⟩ := .of_node (ht.find? hfound)
    exact ht.put (hms.node .header)
  · cases h

theorem Keeps.appendHere (key : String) : Keeps (appendHere key) := by
  intro t t' ht h
  have hnil := (Sorted.nil .header).node .header
  rw [Table.appendHere] at h
  split at h
  · cases h
    exact ht.put (.list (List.forall_mem_singleton.2 hnil))
  · next tables hfound =>
    cases h
    cases ht.find? hfound with
    | list hlist => exact ht.put (.list (List.forall_mem_cons.2 ⟨hnil, hlist⟩))
  · cases h

theorem Keeps.atLast {f : String → Table → Option Table} (hf : ∀ key, Keeps (f key)) (path : List String) :
    Keeps (atLast f path) := by
  intro t t' ht h
  rw [Table.atLast] at h
  split at h
  · cases h
  · next key _ => exact (hf key).change _ _ t t' ht h

theorem Keeps.assignHere {v : Value} (hv : v.Sorted) (isDotted : Bool) (key : String) :
    Keeps (assignHere isDotted key v) := by
  intro t t' ht h
  rw [Table.assignHere] at h
  split at h
  · cases h
  split at h
  · cases h
    exact ht.put (.value hv)
  · cases h

theorem Keeps.assign {v : Value} (hv : v.Sorted) (path : List String) : Keeps (assign path v) := by
  intro t t' ht h
  rw [Table.assign] at h
  split at h
  · cases h
  · next key _ => exact (Keeps.assignHere hv _ key).change _ _ t t' ht h

theorem Keeps.assignUnder {v : Value} (hv : v.Sorted) (header path : List String) :
    Keeps (assignUnder header path v) :=
  (Keeps.assign hv path).change .above header

end Table

/-! ## Values of tables -/

theorem membersToValue_eq (ms : List (String × Node)) :
    membersToValue ms = ms.map fun m => (m.1, m.2.toValue) := by
  induction ms with
  | nil => rfl
  | cons m ms ih => rw [membersToValue, ih, List.map_cons]

theorem tablesToValue_eq (tables : List (List (String × Node))) :
    tablesToValue tables = tables.map fun ms => .table (membersToValue ms) := by
  induction tables with
  | nil => rfl
  | cons ms tables ih => rw [tablesToValue, ih, List.map_cons]

/-- The value of a sorted node is sorted. -/
theorem Node.Sorted.toValue {n : Node} (h : n.Sorted) : n.toValue.Sorted := by
  induction h with
  | value h => exact h
  | table ordered h ih =>
    rw [Node.toValue, membersToValue_eq]
    refine .table (List.pairwise_map.2 ordered) fun m hm => ?_
    obtain ⟨n, hn, rfl⟩ := List.mem_map.1 hm
    exact ih n hn
  | list h ih =>
    rw [Node.toValue, tablesToValue_eq]
    refine .array fun v hv => ?_
    obtain ⟨ms, hms, rfl⟩ := List.mem_map.1 (List.mem_reverse.1 hv)
    exact ih ms hms

theorem Table.Sorted.toValue {t : Table} (h : t.Sorted) : t.toValue.Sorted := (h.node .header).toValue

/-! ## Scanned values -/

theorem bounded_sorted (i : Int) : (bounded i).Yields Value.Sorted := by
  unfold bounded
  split
  · exact .pure (.signed i)
  · exact .failure

theorem integer_sorted : integer.Yields Value.Sorted := by
  have hbased : ∀ opening base p, (based opening base p).Yields Value.Sorted := fun _ _ _ =>
    .after fun _ => .after fun _ => bounded_sorted _
  refine .orElse (hbased _ _ _) (.orElse (hbased _ _ _) (.orElse (hbased _ _ _) ?_))
  exact .after fun _ => .after fun _ => bounded_sorted _

theorem decimal_sorted : decimal.Yields Value.Sorted := by
  refine .after fun s => .after fun whole => .after fun tail => ?_
  split
  · exact .failure
  · exact .failure
  · exact .pure (.float _)

theorem special_sorted : special.Yields Value.Sorted :=
  .after fun _ => .orElse (.after fun _ => .pure (.float _)) (.after fun _ => .pure (.float _))

/-- A date or time is a table with one key. -/
theorem moment_sorted : moment.Yields Value.Sorted :=
  .after fun _ => .pure (Value.Sorted.insert (.string _) .empty)

theorem number_sorted : number.Yields Value.Sorted :=
  .orElse moment_sorted (.orElse decimal_sorted (.orElse special_sorted integer_sorted))

theorem plainValue_sorted : plainValue.Yields Value.Sorted := by
  refine .orElse ?text (.orElse ?true (.orElse ?false number_sorted))
  case text => exact .map fun _ s _ _ => .string s
  case true => exact .after fun _ => .pure (.bool true)
  case false => exact .after fun _ => .pure (.bool false)

section Brackets

variable {value : Scan Value} (h : value.Yields Value.Sorted)
include h

theorem array_sorted : (array value).Yields Value.Sorted := by
  refine Yields.bind (Q := fun vs => ∀ v ∈ vs, v.Sorted) ?items fun vs hvs =>
    .after fun _ => .after fun _ => .pure (.array hvs)
  refine .orElse ((Yields.separated ?item).bind fun vs hvs => .after fun _ => .pure hvs) (.pure fun _ hm => nomatch hm)
  exact .after fun _ => h.bind fun v hv => .after fun _ => .pure hv

theorem pair_sorted : (pair value).Yields fun m => m.2.Sorted :=
  .after fun _ => .after fun _ => .after fun _ => h.bind fun _ hv => .pure hv

end Brackets

/-- A step that keeps a property of the state, and is taken for each of some values, keeps it all the way. -/
theorem foldlM_keeps {α β : Type} {f : α → β → Option α} {P : α → Prop} {Q : β → Prop}
    (hf : ∀ a b a', P a → Q b → f a b = some a' → P a') {bs : List β} (hbs : ∀ b ∈ bs, Q b) :
    ∀ {a a'}, P a → bs.foldlM f a = some a' → P a' := by
  induction bs with
  | nil =>
    intro a a' ha h
    cases h
    exact ha
  | cons b bs ih =>
    intro a a' ha h
    obtain ⟨hb, hbs⟩ := List.forall_mem_cons.1 hbs
    rw [List.foldlM_cons] at h
    obtain ⟨a₁, h₁, h⟩ := Option.bind_eq_some_iff.1 h
    exact ih hbs (hf a b a₁ ha hb h₁) h

theorem inlineTable_sorted {value : Scan Value} (h : value.Yields Value.Sorted) :
    (inlineTable value).Yields Value.Sorted := by
  refine Yields.bind (Q := fun ms => ∀ m ∈ ms, m.2.Sorted) ?members fun ms hms => .after fun _ => .after fun _ => ?table
  case members =>
    refine .orElse (Yields.separated ?member) (.pure fun _ hm => nomatch hm)
    exact (pair_sorted h).bind fun m hm => .after fun _ => .pure hm
  case table =>
    split
    · next t ht =>
      have hkeeps : ∀ (t : Table) (m : List String × Value) (t' : Table), t.Sorted → m.2.Sorted →
          Table.assign m.1 m.2 t = some t' → t'.Sorted := fun t m t' ht hm => Table.Keeps.assign hm m.1 t t' ht
      exact .pure (foldlM_keeps hkeeps hms (.nil .header) ht).toValue
    · exact .failure

theorem valueFrom_sorted (depth : Nat) : (valueFrom depth).Yields Value.Sorted := by
  induction depth with
  | zero => exact plainValue_sorted
  | succ depth ih =>
    refine .after fun c => ?_
    split
    · exact .after fun _ => array_sorted ih
    · exact .after fun _ => inlineTable_sorted ih
    · exact plainValue_sorted

/-! ## Documents -/

/-- What a line puts into a document is sorted. -/
def Line.Sorted : Line → Prop
  | .assign _ v => v.Sorted
  | _ => True

theorem header_sorted : header.Yields Line.Sorted := by
  refine .after fun doubled => .after fun path => .after fun _ => ?_
  split
  · exact .after fun _ => .pure trivial
  · exact .pure trivial

theorem line_sorted : line.Yields Line.Sorted := by
  refine .after fun _ => .after fun c => ?_
  split
  · exact .failure
  · exact .after fun _ => .pure trivial
  · exact .after fun _ => .pure trivial
  · exact .after fun _ => .pure trivial
  · exact .after fun _ => header_sorted.bind fun l hl => .after fun _ => .pure hl
  · exact (pair_sorted (valueFrom_sorted _)).bind fun m hm => .after fun _ => .pure hm

/-- Every line keeps a document sorted. -/
theorem Document.apply_sorted (d : Document) (l : Line) (d' : Document) (hd : d.root.Sorted) (hl : l.Sorted)
    (h : d.apply l = some d') : d'.root.Sorted := by
  cases l with
  | nothing =>
    cases h
    exact hd
  | assign path v =>
    obtain ⟨root, hroot, h⟩ := Option.bind_eq_some_iff.1 h
    cases h
    exact Table.Keeps.assignUnder hl d.header path _ _ hd hroot
  | define path =>
    obtain ⟨root, hroot, h⟩ := Option.bind_eq_some_iff.1 h
    cases h
    exact Table.Keeps.atLast Table.Keeps.defineHere path _ _ hd hroot
  | append path =>
    obtain ⟨root, hroot, h⟩ := Option.bind_eq_some_iff.1 h
    cases h
    exact Table.Keeps.atLast Table.Keeps.appendHere path _ _ hd hroot

theorem document_isLayer : document.Yields Value.IsLayer := by
  refine (Yields.many line_sorted).bind fun lines hlines => .after fun _ => ?_
  split
  · next d hd =>
    have hsorted := foldlM_keeps (P := fun d : Document => d.root.Sorted) Document.apply_sorted hlines (.nil .header) hd
    exact .pure ⟨⟨_, rfl⟩, hsorted.toValue⟩
  · exact .failure

/-- **A document is read as a sorted table**: no table in it has a key twice. -/
theorem decode?_isLayer {content : Bytes} {v : Value} (h : decode? content = some v) : v.IsLayer := by
  obtain ⟨s, -, h⟩ := Option.bind_eq_some_iff.1 h
  exact document_isLayer.all h

end RegistryPublisher.Toml
