import RegistryPublisher.Proofs.Json.Records
import RegistryPublisher.Verdict

/-!
# Written verdicts

- `Issue.reads` and `Verdict.reads`: a written issue or verdict is read back as it is;
- `Verdict.encode_inj`: different verdicts are written differently;
- `Verdict.encode_normalizes`: writing a verdict that was read, in whatever spelling, and reading it again changes
  nothing.
-/

namespace RegistryPublisher

open Json (Reads Written)

/-! ## Names -/

theorem IssueKind.reads (depth : Nat) (k : IssueKind) : Reads (read depth) k.encode k := by
  have h := (Reads.name depth k.name).map ofName
  rw [ofName_name] at h
  exact h

theorem IssueSeverity.reads (depth : Nat) (k : IssueSeverity) : Reads (read depth) k.encode k := by
  have h := (Reads.name depth k.name).map ofName
  rw [ofName_name] at h
  exact h

/-! ## Issues -/

namespace Issue

/-- The members an issue is written with. -/
def written (i : Issue) : List (Written Issue) := [
  ⟨"type", i.kind.encode, fun r => { r with kind := i.kind }⟩,
  ⟨"path", Json.renderString i.path, fun r => { r with path := i.path }⟩,
  ⟨"message", Json.renderString i.message, fun r => { r with message := i.message }⟩,
  ⟨"severity", i.severity.encode, fun r => { r with severity := i.severity }⟩,
  ⟨"reference", Json.renderString i.reference, fun r => { r with reference := i.reference }⟩]

theorem written_fits (depth : Nat) (i : Issue) : ∀ m ∈ i.written, m.Fits shape depth := by
  simp only [written, List.forall_mem_cons, List.not_mem_nil, false_implies, implies_true, and_true]
  refine ⟨⟨_, rfl, ?type⟩, ⟨_, rfl, ?path⟩, ⟨_, rfl, ?message⟩, ⟨_, rfl, ?severity⟩, ⟨_, rfl, ?reference⟩⟩
  case type => exact (IssueKind.reads depth i.kind).field "type" true _
  case path => exact (Reads.text i.path).field "path" false _
  case message => exact (Reads.text i.message).field "message" true _
  case severity => exact (IssueSeverity.reads depth i.severity).field "severity" true _
  case reference => exact (Reads.text i.reference).field "reference" false _

/-- A written issue is read back, whatever stands in it. -/
theorem reads (depth : Nat) (i : Issue) : Reads (shape.read (depth + 1)) i.encode i := by
  refine Reads.record (written_fits depth i) ?_ ?_
  · change ["type", "path", "message", "severity", "reference"].Nodup
    decide
  · change ∀ field ∈ shape.fields, field.required = true →
      field.name ∈ ["type", "path", "message", "severity", "reference"]
    simp [shape, Json.Field.of]

end Issue

/-! ## Verdicts -/

namespace Verdict

/-- The members a verdict is written with. -/
def written (v : Verdict) : List (Written Verdict) := [
  ⟨"valid", Json.renderBool v.valid, fun r => { r with valid := v.valid }⟩,
  ⟨"issues", 0x5b :: (Json.separated (v.issues.map Issue.encode) ++ [0x5d]), fun r => { r with issues := v.issues }⟩]

theorem written_fits (depth : Nat) (v : Verdict) : ∀ m ∈ v.written, m.Fits shape (depth + 2) := by
  simp only [written, List.forall_mem_cons, List.not_mem_nil, false_implies, implies_true, and_true]
  refine ⟨⟨_, rfl, ?valid⟩, ⟨_, rfl, ?issues⟩⟩
  case valid => exact (Reads.flag v.valid).field "valid" true _
  case issues =>
    -- the list and each issue in it take one bracket each
    have hlist : Reads (Json.readList Issue.shape.read (depth + 2)) _ v.issues :=
      Reads.list fun i _ => Issue.reads depth i
    exact hlist.field "issues" false _

theorem reads (depth : Nat) (v : Verdict) : Reads (shape.read (depth + 3)) v.encode v := by
  refine Reads.record (written_fits depth v) ?_ ?_
  · change ["valid", "issues"].Nodup
    decide
  · change ∀ field ∈ shape.fields, field.required = true → field.name ∈ ["valid", "issues"]
    simp [shape, Json.Field.of]

/-- A written verdict is read back. -/
theorem decode_of_encode (v : Verdict) : decode v.encode = .ok v := (reads 124 v).decode

/-- Different verdicts are written differently. -/
theorem encode_inj {v v' : Verdict} (h : v.encode = v'.encode) : v = v' := by
  have hv := decode_of_encode v
  rw [h, decode_of_encode v'] at hv
  cases hv
  rfl

/-- **Reading normalises.** Every verdict is read back from its encoding. So a text that is read at all is read once more
from the encoding of its verdict, to the same end: no issue is lost, added or moved, and the first issue about the schema
stays where it is. -/
theorem encode_normalizes :
    (∀ v : Verdict, decode v.encode = .ok v) ∧
    ∀ (text : Bytes) (v : Verdict), decode text = .ok v →
      ∃ v' : Verdict, decode v.encode = .ok v' ∧ decode v.encode = decode text ∧ v'.issues.length = v.issues.length ∧
        (∀ n : Nat, v'.issues[n]? = v.issues[n]?) ∧ v'.firstSchemaIssue = v.firstSchemaIssue := by
  refine ⟨decode_of_encode, fun text v hread => ⟨v, decode_of_encode v, ?_, rfl, fun _ => rfl, rfl⟩⟩
  rw [hread, decode_of_encode]

/-- A verdict with blanks, an unknown key, a kind that is not known and fields left out or in another order. -/
def looseText : Bytes := Utf8.encode
  "\x7b \"issues\": [\x7b\"severity\":\"error\",\"x\":[0],\"message\":\"\\u00e9\",\"type\":\"lint\"\x7d],\"valid\":false\x7d"

theorem decode_looseText : decode looseText = .ok ⟨false, [⟨.unknown, "", "é", .error, ""⟩]⟩ := by
  have htext : looseText = [
    0x7b, 0x20, 0x22, 0x69, 0x73, 0x73, 0x75, 0x65, 0x73, 0x22, 0x3a, 0x20, 0x5b, 0x7b, 0x22, 0x73, 0x65, 0x76, 0x65,
    0x72, 0x69, 0x74, 0x79, 0x22, 0x3a, 0x22, 0x65, 0x72, 0x72, 0x6f, 0x72, 0x22, 0x2c, 0x22, 0x78, 0x22, 0x3a, 0x5b,
    0x30, 0x5d, 0x2c, 0x22, 0x6d, 0x65, 0x73, 0x73, 0x61, 0x67, 0x65, 0x22, 0x3a, 0x22, 0x5c, 0x75, 0x30, 0x30, 0x65,
    0x39, 0x22, 0x2c, 0x22, 0x74, 0x79, 0x70, 0x65, 0x22, 0x3a, 0x22, 0x6c, 0x69, 0x6e, 0x74, 0x22, 0x7d, 0x5d, 0x2c,
    0x22, 0x76, 0x61, 0x6c, 0x69, 0x64, 0x22, 0x3a, 0x66, 0x61, 0x6c, 0x73, 0x65, 0x7d] := by decide
  rw [htext]
  rfl

/-- The loose text and the encoding of its verdict differ, and are read alike. -/
theorem encode_normalizes_loose :
    ∃ v, decode looseText = .ok v ∧ v.issues.length = 1 ∧ v.encode ≠ looseText ∧ decode v.encode = decode looseText := by
  have hread := decode_looseText
  obtain ⟨-, -, hsame, -⟩ := encode_normalizes.2 looseText _ hread
  exact ⟨_, hread, rfl, by decide, hsame⟩

end Verdict

end RegistryPublisher
