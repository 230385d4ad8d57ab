import RegistryPublisher.Login.Store
import RegistryPublisher.Proofs.Action
import RegistryPublisher.Proofs.Descriptor.Reading
import RegistryPublisher.Proofs.Verdict.Tolerance

/-!
# Documents that are no objects

Descriptors are read from objects only. The other records are read from arrays of their fields too: in order, and with
optional fields left out at the end.

- `Verdict.Listed`, `Receipt.Listed` and `Login.Listed` are these arrays, and `Verdict.decode_listed_iff` and the like say
  that they are what is read of texts that are no objects;
- `decode_nonObject`: a validation, a publication and the token file fail with any other text that is no object.
-/

namespace RegistryPublisher

open Json (Form Tree Accepts Follows IsArray Shape)

/-- The text does not begin as an object. -/
def NoObject (text : Bytes) : Prop := ∀ r, Json.skipBlanks text ≠ 0x7b :: r

/-- The text does not begin as an array. -/
def NoArray (text : Bytes) : Prop := ∀ r, Json.skipBlanks text ≠ 0x5b :: r

namespace NoArray

variable {text : Bytes}

theorem not_array (h : NoArray text) {φ : Type} {At : φ → Bytes → Bytes → Prop} {xs : List φ} : ¬ IsArray At xs text :=
  fun ⟨r, _, start, _⟩ => h r start

theorem not_text (h : NoArray text) {fs : List Form} : ¬ (Form.array fs).Text text :=
  fun htext => h.not_array (Form.array_text_iff.1 htext)

theorem not_parse (h : NoArray text) {ts : List Tree} : Tree.parse text ≠ .ok (.array ts) :=
  fun hparse => h.not_array (Tree.parse_array_iff.1 hparse)

end NoArray

namespace Json

variable {α : Type}

theorem Form.flag?_eq_some_iff {f : Form} {b : Bool} : f.flag? = some b ↔ f = bool b := by
  cases f <;> simp [flag?]

theorem Form.text?_eq_some_iff {f : Form} {s : String} : f.text? = some s ↔ f = string (some s) := by
  cases f <;> simp [text?]

theorem Form.list?_eq_some_iff {g : Form → Option α} {f : Form} {vs : List α} :
    f.list? g = some vs ↔ ∃ fs, f = array fs ∧ fs.mapM g = some vs := by
  cases f <;> simp [list?]

/-- A text that is no object is read as a record when it is an array of forms that hold its fields. -/
theorem Shape.ReadsForms.decode_listed_iff {s : Shape α} {value : String → Form → Option (α → α)}
    (h : s.ReadsForms value 126) (hpositional : s.positional = true) {text : Bytes} (hobject : NoObject text) {v : α} :
    s.decode text = .ok v ↔
      ∃ fs, (Form.array fs).Text text ∧ ofItems? value s.fields fs s.blank = some v := by
  rw [Shape.decode_listed_iff (fun field hfield {bs put rest} => h.fields field hfield bs put rest) hobject]
  simp only [hpositional, true_and, Form.array_text_iff]

end Json

/-! ## Verdicts -/

namespace Verdict

variable {text : Bytes} {v : Verdict}

/-- The text is an array of a flag, or of a flag and issues. -/
def Listed (text : Bytes) (v : Verdict) : Prop :=
  ((Form.array [.bool v.valid]).Text text ∧ v.issues = []) ∨
    ∃ fs, (Form.array [.bool v.valid, .array fs]).Text text ∧ fs.mapM Issue.ofForm? = some v.issues

theorem decode_listed_iff (h : NoObject text) : decode text = .ok v ↔ Listed text v := by
  obtain ⟨valid, issues⟩ := v
  rw [decode, (readsForms 123).decode_listed_iff rfl h]
  simp only [shape, Shape.ofItems?_pair]
  constructor
  · rintro ⟨_, htext, ⟨-, hrequired, -⟩ | ⟨x, put, rfl, hput, -, hv⟩ | ⟨x, y, put, put', rfl, hput, hput', hv⟩⟩
    · cases hrequired
    · obtain ⟨b, hb, rfl⟩ := Option.map_eq_some_iff.1 hput
      obtain rfl := Form.flag?_eq_some_iff.1 hb
      cases hv
      exact Or.inl ⟨htext, rfl⟩
    · obtain ⟨b, hb, rfl⟩ := Option.map_eq_some_iff.1 hput
      obtain ⟨is, his, rfl⟩ := Option.map_eq_some_iff.1 hput'
      obtain rfl := Form.flag?_eq_some_iff.1 hb
      obtain ⟨fs, rfl, hfs⟩ := Form.list?_eq_some_iff.1 his
      cases hv
      exact Or.inr ⟨fs, htext, hfs⟩
  · rintro (⟨htext, hissues⟩ | ⟨fs, htext, hfs⟩)
    · cases hissues
      exact ⟨_, htext, Or.inr (Or.inl ⟨_, _, rfl, rfl, rfl, rfl⟩)⟩
    · have hissues : formValue? "issues" (.array fs) = some fun w => { w with issues := issues } := by
        change Option.map _ (fs.mapM Issue.ofForm?) = _
        rw [hfs]
        rfl
      exact ⟨_, htext, Or.inr (Or.inr ⟨_, _, _, _, rfl, rfl, hissues, rfl⟩)⟩

end Verdict

/-! ## Receipts -/

namespace Receipt

variable {text : Bytes} {r : Receipt}

/-- What the registry added, if it is not `null`. -/
def present? : Json → Option Json
  | .null => none
  | v => some v

/-- What the value of a member does to a receipt. -/
def treeValue? (key : String) (t : Tree) : Option (Receipt → Receipt) :=
  if key = "server" then (Descriptor.ofTree? t).map fun d r => { r with server := d }
  else if key = "_meta" then (t.value?.map present?).map fun m r => { r with metadata := m }
  else none

theorem fields_follow (depth : Nat) : ∀ field ∈ shape.fields, Follows (Tree.read depth) (treeValue? field.name)
    (field.read depth) := by
  simp only [shape, List.forall_mem_cons, List.not_mem_nil, false_implies, implies_true, and_true]
  refine ⟨?server, ?metadata⟩
  case server => exact (Descriptor.read_follows depth).map _
  case metadata =>
    have hfollows : Follows (Tree.read depth) (fun t => t.value?.map present?) (Json.readOptional depth) := by
      intro bs m rest
      rw [Json.readOptional, Json.bind_eq_ok_iff]
      simp only [Option.map_eq_some_iff]
      constructor
      · rintro ⟨⟨v, r⟩, hv, hm⟩
        obtain ⟨t, ht, hvalue⟩ := (Tree.readValue_follows depth ..).1 hv
        obtain ⟨rfl, rfl⟩ : m = present? v ∧ rest = r := by
          cases v <;> cases hm <;> exact ⟨rfl, rfl⟩
        exact ⟨t, ht, v, hvalue, rfl⟩
      · rintro ⟨t, ht, v, hvalue, rfl⟩
        have hv := (Tree.readValue_follows depth ..).2 ⟨t, ht, hvalue⟩
        exact ⟨(v, rest), hv, by cases v <;> rfl⟩
    exact hfollows.map _

/-- The text is an array of a descriptor, or of a descriptor and any value. -/
def Listed (text : Bytes) (r : Receipt) : Prop :=
  ∃ t, Descriptor.ofTree? t = some r.server ∧
    ((Tree.parse text = .ok (.array [t]) ∧ r.metadata = none) ∨
      ∃ u v, Tree.parse text = .ok (.array [t, u]) ∧ u.value? = some v ∧ r.metadata = present? v)

theorem decode_listed_iff (h : NoObject text) : decode text = .ok r ↔ Listed text r := by
  obtain ⟨server, metadata⟩ := r
  have hfields := fields_follow 126
  rw [decode, Shape.decode_listed_iff (fun field hfield {bs put rest} => hfields field hfield bs put rest) h]
  simp only [← Json.Tree.parse_array_iff]
  simp only [shape, true_and, Shape.ofItems?_pair]
  constructor
  · rintro ⟨_, htext, ⟨-, hrequired, -⟩ | ⟨t, put, rfl, hput, -, hr⟩ | ⟨t, u, put, put', rfl, hput, hput', hr⟩⟩
    · cases hrequired
    · obtain ⟨d, hd, rfl⟩ := Option.map_eq_some_iff.1 hput
      cases hr
      exact ⟨t, hd, Or.inl ⟨htext, rfl⟩⟩
    · obtain ⟨d, hd, rfl⟩ := Option.map_eq_some_iff.1 hput
      obtain ⟨m, hm, rfl⟩ := Option.map_eq_some_iff.1 hput'
      obtain ⟨v, hv, rfl⟩ := Option.map_eq_some_iff.1 hm
      cases hr
      exact ⟨t, hd, Or.inr ⟨u, v, htext, hv, rfl⟩⟩
  · rintro ⟨t, hd, hlisted⟩
    have hserver : treeValue? "server" t = some fun r => { r with server := server } := by
      change Option.map _ (Descriptor.ofTree? t) = _
      rw [hd]
      rfl
    rcases hlisted with ⟨htext, hmetadata⟩ | ⟨u, v, htext, hv, hmetadata⟩
    · cases hmetadata
      exact ⟨_, htext, Or.inr (Or.inl ⟨t, _, rfl, hserver, rfl, rfl⟩)⟩
    · cases hmetadata
      have hvalue : treeValue? "_meta" u = some fun r => { r with metadata := present? v } := by
        change Option.map _ (Option.map _ u.value?) = _
        rw [hv]
        rfl
      exact ⟨_, htext, Or.inr (Or.inr ⟨t, u, _, _, rfl, hserver, hvalue, rfl⟩)⟩

end Receipt

/-! ## Logins -/

namespace Login

variable {text : Bytes} {l : Login}

/-- What the value of a member does to a login. -/
def formValue? (key : String) (f : Form) : Option (Login → Login) :=
  if key = "token" then f.text?.map fun s l => { l with token := s }
  else if key = "registry" then f.text?.map fun s l => { l with registry := s }
  else none

theorem readsForms (depth : Nat) : shape.ReadsForms formValue? depth := by
  refine ⟨?_, rfl⟩
  simp only [shape, List.forall_mem_cons, List.not_mem_nil, false_implies, implies_true, and_true]
  refine ⟨?token, ?registry⟩
  case token => exact Accepts.text.field "token" false _
  case registry => exact Accepts.text.field "registry" false _

/-- The text is an array of two texts, of which the second one or both may be left out. -/
def Listed (text : Bytes) (l : Login) : Prop :=
  ((Form.array []).Text text ∧ l = ⟨"", ""⟩) ∨
  ((Form.array [.string (some l.token)]).Text text ∧ l.registry = "") ∨
    (Form.array [.string (some l.token), .string (some l.registry)]).Text text

theorem decode_listed_iff (h : NoObject text) : decode text = .ok l ↔ Listed text l := by
  obtain ⟨token, registry⟩ := l
  rw [decode, (readsForms 126).decode_listed_iff rfl h]
  simp only [shape, Shape.ofItems?_pair]
  constructor
  · rintro ⟨_, htext, ⟨rfl, -, -, hl⟩ | ⟨x, put, rfl, hput, -, hl⟩ | ⟨x, y, put, put', rfl, hput, hput', hl⟩⟩
    · cases hl
      exact Or.inl ⟨htext, rfl⟩
    · obtain ⟨s, hs, rfl⟩ := Option.map_eq_some_iff.1 hput
      obtain rfl := Form.text?_eq_some_iff.1 hs
      cases hl
      exact Or.inr (Or.inl ⟨htext, rfl⟩)
    · obtain ⟨s, hs, rfl⟩ := Option.map_eq_some_iff.1 hput
      obtain ⟨s', hs', rfl⟩ := Option.map_eq_some_iff.1 hput'
      obtain rfl := Form.text?_eq_some_iff.1 hs
      obtain rfl := Form.text?_eq_some_iff.1 hs'
      cases hl
      exact Or.inr (Or.inr htext)
  · rintro (⟨htext, hl⟩ | ⟨htext, hregistry⟩ | htext)
    · cases hl
      exact ⟨_, htext, Or.inl ⟨rfl, rfl, rfl, rfl⟩⟩
    · cases hregistry
      exact ⟨_, htext, Or.inr (Or.inl ⟨_, _, rfl, rfl, rfl, rfl⟩)⟩
    · exact ⟨_, htext, Or.inr (Or.inr ⟨_, _, _, _, rfl, rfl, rfl, rfl⟩)⟩

/-- A token file that can be read holds the login that its text is read as, or is not valid. -/
theorem load_of_read {w : World} {s : Settings} {path : String} (hp : path? w s = some path)
    (h : w.read path = .ok text) :
    (∀ x, load w s = .ok x ↔ ∃ l, x = some l ∧ decode text = .ok l) ∧
      ∀ cause, load w s = .error cause → ∃ e, cause = .invalid path e := by
  simp only [load, loadFile, hp, h]
  cases decode text with
  | ok l =>
    refine ⟨fun x => ⟨?_, ?_⟩, nofun⟩
    · intro hx
      cases hx
      exact ⟨l, rfl, rfl⟩
    · rintro ⟨_, rfl, hl⟩
      cases hl
      rfl
  | error e =>
    refine ⟨fun x => ⟨nofun, fun ⟨_, _, hl⟩ => nomatch hl⟩, fun cause hcause => ?_⟩
    cases hcause
    exact ⟨e, rfl⟩

end Login

/-! ## All records -/

namespace Client

/-- An accepted answer gives what its body is read as, or cannot be decoded. -/
theorem interpret_body {α : Type} {accepted : List Nat} {decode : Bytes → Except Json.Error α} {status : Nat}
    {text : Bytes} (h : status ∈ accepted) :
    (∀ v, interpret accepted decode (.complete status text) = .ok v ↔ decode text = .ok v) ∧
      ∀ cause, interpret accepted decode (.complete status text) = .error cause → ∃ e, cause = .undecodable e := by
  rw [interpret_accepted decode h]
  cases decode text with
  | ok w =>
    refine ⟨fun v => ⟨fun hv => ?_, fun hv => ?_⟩, nofun⟩ <;>
    · cases hv
      rfl
  | error e =>
    refine ⟨fun v => ⟨nofun, nofun⟩, fun cause hcause => ?_⟩
    cases hcause
    exact ⟨e, rfl⟩

end Client

open Client

/-- **Documents that are no objects** hold no descriptor. They hold a verdict, a receipt or a login when they are arrays of
its fields, and with an accepted answer or a token file of such a text:
- a validation or a publication gives the verdict or the receipt that the text lists, and fails to decode it otherwise;
- the token file gives the login that it lists, and is not valid otherwise.
Other documents than arrays and objects are never read. -/
theorem decode_nonObject {text : Bytes} (h : NoObject text) :
    (∀ d, Descriptor.decode text ≠ .ok d) ∧
    (∀ v, Verdict.decode text = .ok v ↔ Verdict.Listed text v) ∧
    (∀ r, Receipt.decode text = .ok r ↔ Receipt.Listed text r) ∧
    (∀ l, Login.decode text = .ok l ↔ Login.Listed text l) ∧
    (∀ net e d j status, status ∈ validateAccepts → net.reply (validateRequest e d) = .complete status text →
      (∀ v, ((validate net e d).run j).1 = .ok v ↔ Verdict.Listed text v) ∧
      ∀ cause, ((validate net e d).run j).1 = .error cause → ∃ f, cause = .undecodable f) ∧
    (∀ net e d j status, status ∈ publishAccepts → net.reply (publishRequest e d) = .complete status text →
      (∀ r, ((publish net e d).run j).1 = .ok r ↔ Receipt.Listed text r) ∧
      ∀ cause, ((publish net e d).run j).1 = .error cause → ∃ f, cause = .undecodable f) ∧
    (∀ w s path, Login.path? w s = some path → w.read path = .ok text →
      (∀ x, Login.load w s = .ok x ↔ ∃ l, x = some l ∧ Login.Listed text l) ∧
      ∀ cause, Login.load w s = .error cause → ∃ f, cause = .invalid path f) ∧
    (NoArray text → (∀ v, ¬ Verdict.Listed text v) ∧ (∀ r, ¬ Receipt.Listed text r) ∧ ∀ l, ¬ Login.Listed text l) := by
  have hverdict : ∀ v, Verdict.decode text = .ok v ↔ Verdict.Listed text v := fun _ => Verdict.decode_listed_iff h
  have hreceipt : ∀ r, Receipt.decode text = .ok r ↔ Receipt.Listed text r := fun _ => Receipt.decode_listed_iff h
  have hlogin : ∀ l, Login.decode text = .ok l ↔ Login.Listed text l := fun _ => Login.decode_listed_iff h
  refine ⟨?descriptor, hverdict, hreceipt, hlogin, ?validate, ?publish, ?load, ?scalar⟩
  case descriptor =>
    intro d hd
    obtain ⟨rest, hread, -⟩ := Json.decode_eq_ok_iff.1 hd
    obtain ⟨_, r, -, start, -⟩ := Descriptor.read_eq_ok_iff.1 hread
    exact h r start
  case validate =>
    intro net e d j status hstatus hreply
    rw [validate_run, verdict, hreply]
    simp only [← hverdict]
    exact interpret_body hstatus
  case publish =>
    intro net e d j status hstatus hreply
    rw [publish_run, receipt, hreply]
    simp only [← hreceipt]
    exact interpret_body hstatus
  case load =>
    intro w s path hpath hread
    simp only [← hlogin]
    exact Login.load_of_read hpath hread
  case scalar =>
    intro harray
    refine ⟨?verdict, ?receipt, ?login⟩
    case verdict =>
      rintro v (⟨htext, -⟩ | ⟨fs, htext, -⟩)
      · exact harray.not_text htext
      · exact harray.not_text htext
    case receipt =>
      rintro r ⟨t, -, ⟨hparse, -⟩ | ⟨u, v, hparse, -⟩⟩
      · exact harray.not_parse hparse
      · exact harray.not_parse hparse
    case login =>
      rintro l (⟨htext, -⟩ | ⟨htext, -⟩ | htext)
      · exact harray.not_text htext
      · exact harray.not_text htext
      · exact harray.not_text htext

/-- An empty array. -/
def emptyList : Bytes := [0x5b, 0x5d]

/-- An empty array is a login without a token, and no verdict. -/
theorem decode_nonObject_empty :
    let net : Network := .direct fun _ => .complete 200 emptyList
    let validation := (Client.validate net ⟨"http://r", none⟩ .empty).run (Journal.start none)
    Login.decode emptyList = .ok ⟨"", ""⟩ ∧ ∃ e, validation.1 = .error (.undecodable e) := by
  intro net validation
  have hobject : NoObject emptyList := fun r h => nomatch h
  have htext : (Form.array []).Text emptyList := ⟨[], .array rfl (.noItem rfl), rfl⟩
  obtain ⟨-, -, -, hlogin, hvalidate, -⟩ := decode_nonObject hobject
  obtain ⟨hverdict, hfailure⟩ := hvalidate net ⟨"http://r", none⟩ .empty (Journal.start none) 200
    (List.mem_singleton.2 rfl) rfl
  refine ⟨(hlogin _).2 (Or.inl ⟨htext, rfl⟩), ?_⟩
  cases hrun : validation.1 with
  | ok v =>
    -- the text has one form only, and this one has no items
    rcases (hverdict v).1 hrun with ⟨h, -⟩ | ⟨fs, h, -⟩ <;> cases htext.unique h
  | error cause =>
    obtain ⟨e, rfl⟩ := hfailure cause hrun
    exact ⟨e, rfl⟩

/-- An array with a token. -/
def tokenList : Bytes := Utf8.encode "[\"x\"]"

/-- A world in which every file is this array. -/
def listWorld : World where
  read _ := .ok tokenList
  environment := []
  directory := "/"
  accountHome := some "/"

/-- A token file may be an array, and its token is used. -/
theorem load_tokenList : NoObject tokenList ∧
    (∃ path, Login.path? listWorld .empty = some path ∧ listWorld.read path = .ok tokenList) ∧
      Login.load listWorld .empty = .ok (some ⟨"x", ""⟩) := by
  have hstart : Json.skipBlanks tokenList = 0x5b :: Utf8.encode "\"x\"]" := by decide +kernel
  have hobject : NoObject tokenList := fun r h => nomatch hstart.symm.trans h
  have hread : Login.decode tokenList = .ok ⟨"x", ""⟩ := by cbv
  obtain ⟨hload, -⟩ := @Login.load_of_read tokenList listWorld .empty _ rfl rfl
  exact ⟨hobject, ⟨_, rfl, rfl⟩, (hload _).2 ⟨_, rfl, hread⟩⟩

end RegistryPublisher
