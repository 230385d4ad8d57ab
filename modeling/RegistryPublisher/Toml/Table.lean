import RegistryPublisher.Settings.Value

/-!
# Tables of TOML

A document may mention a table in several places, but define it only once.

- `Table.define` opens a table by its header, `Table.append` one more table of a list;
- `Table.assign` gives a key a value, making the tables of a dotted key;
- `Table.toValue` forgets how the tables were made.
-/

namespace RegistryPublisher.Toml

open RegistryPublisher.Settings (Value)

/-- How a table came about. -/
inductive Origin where
  /-- By its header, or as the whole document. -/
  | header
  /-- As a part of the header of another table. -/
  | above
  /-- As a part of a dotted key. -/
  | dotted
  deriving DecidableEq, Repr

/-- What stands under a key of a table. -/
inductive Node where
  | value (v : Value)
  | table (origin : Origin) (members : List (String × Node))
  /-- A list of tables, the last one first. -/
  | list (tables : List (List (String × Node)))
  deriving Inhabited

/-- A table that is being read. -/
structure Table where
  origin : Origin
  members : List (String × Node)

namespace Table

/-- A document with nothing in it. -/
def empty : Table := ⟨.header, []⟩

/-- Replaces the member of a key. -/
def put (t : Table) (key : String) (n : Node) : Table := { t with members := Members.insert key n t.members }

/-- Changes the table that a path leads to; tables that are missing are made. A dotted key may not lead through a table
that has a header. -/
def change (made : Origin) (f : Table → Option Table) : List String → Table → Option Table
  | [], t => f t
  | key :: path, t =>
    match Members.find? key t.members with
    | none => do
      let inner ← change made f path ⟨made, []⟩
      return t.put key (.table inner.origin inner.members)
    | some (.table origin ms) =>
      if made = .dotted ∧ origin = .header then none
      else do
        let inner ← change made f path ⟨origin, ms⟩
        return t.put key (.table inner.origin inner.members)
    | some (.list (ms :: tables)) => do
      let inner ← change made f path ⟨.header, ms⟩
      return t.put key (.list (inner.members :: tables))
    | some _ => none

/-- Opens the table of a key by its header: it may be there only as a part of other headers. -/
def defineHere (key : String) (t : Table) : Option Table :=
  match Members.find? key t.members with
  | none => some (t.put key (.table .header []))
  | some (.table .above ms) => some (t.put key (.table .header ms))
  | some _ => none

/-- Opens one more table in the list of a key. -/
def appendHere (key : String) (t : Table) : Option Table :=
  match Members.find? key t.members with
  | none => some (t.put key (.list [[]]))
  | some (.list tables) => some (t.put key (.list ([] :: tables)))
  | some _ => none

/-- Applies a change to the table before the last key of a path. -/
def atLast (f : String → Table → Option Table) (path : List String) (t : Table) : Option Table :=
  match path.getLast? with
  | none => none
  | some key => change .above (f key) path.dropLast t

/-- Opens a table by its header. -/
def define (path : List String) (t : Table) : Option Table := atLast defineHere path t

/-- Opens one more table of a list by its header. -/
def append (path : List String) (t : Table) : Option Table := atLast appendHere path t

/-- Gives a key of a table a value. A dotted key has to end in a table that only dotted keys made, a plain one in a
table that none made. -/
def assignHere (isDotted : Bool) (key : String) (v : Value) (t : Table) : Option Table :=
  if isDotted = (t.origin != .dotted) then none
  else match Members.find? key t.members with
    | none => some (t.put key (.value v))
    | some _ => none

/-- Gives a dotted key a value. -/
def assign (path : List String) (v : Value) (t : Table) : Option Table :=
  match path.getLast? with
  | none => none
  | some key => change .dotted (assignHere (1 < path.length) key v) path.dropLast t

/-- Gives a dotted key a value inside the table that a header opened. -/
def assignUnder (header path : List String) (v : Value) (t : Table) : Option Table :=
  change .above (assign path v) header t

end Table

mutual

/-- The value of a node. -/
def Node.toValue : Node → Value
  | .value v => v
  | .table _ ms => .table (membersToValue ms)
  | .list tables => .array (tablesToValue tables).reverse

/-- The values of all members. -/
def membersToValue : List (String × Node) → List (String × Value)
  | [] => []
  | (k, n) :: ms => (k, n.toValue) :: membersToValue ms

/-- The values of some tables. -/
def tablesToValue : List (List (String × Node)) → List Value
  | [] => []
  | ms :: tables => .table (membersToValue ms) :: tablesToValue tables

end

/-- The value of a table. -/
def Table.toValue (t : Table) : Value := .table (membersToValue t.members)

end RegistryPublisher.Toml
