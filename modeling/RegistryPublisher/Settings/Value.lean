import RegistryPublisher.Members
import RegistryPublisher.Number.Extended
import RegistryPublisher.Text.Quoted

/-!
# Configured values

- `Settings.Value` is what a layer of the settings gives a key; tables keep their keys in order;
- `Value.merge` puts one layer over another: tables are merged key by key, anything else replaces what was there.
-/

namespace RegistryPublisher.Settings

/-- What a layer of the settings gives a key. -/
inductive Value where
  | string (s : String)
  | bool (b : Bool)
  | signed (i : Int)
  | unsigned (n : Nat)
  | float (x : Extended)
  | array (items : List Value)
  | table (members : List (String × Value))
  deriving BEq, Repr, Inhabited

namespace Value

/-- What sort of value it is, in the words of a message. -/
def describe : Value → String
  | string s => "string " ++ Text.quoted s
  | bool b => "bool " ++ (if b then "true" else "false")
  | signed i => "signed int \x60" ++ toString i ++ "\x60"
  | unsigned n => "unsigned int \x60" ++ toString n ++ "\x60"
  | float x => "float \x60" ++ x.plain ++ "\x60"
  | array _ => "sequence"
  | table _ => "map"

mutual

/-- Puts a value over an older one. -/
def merge (old : Value) : Value → Value
  | table new =>
    match old with
    | table ms => table (mergeMembers ms new)
    | _ => table new
  | v => v

/-- Puts the members of a table over those of an older one. -/
def mergeMembers (old : List (String × Value)) : List (String × Value) → List (String × Value)
  | [] => old
  | (k, v) :: ms =>
    mergeMembers (Members.insert k (match Members.find? k old with
      | some o => merge o v
      | none => v) old) ms

end

/-- A value under a path of keys. -/
def nest (path : List String) (v : Value) : Value := path.foldr (fun k v => table [(k, v)]) v

end Value

end RegistryPublisher.Settings
