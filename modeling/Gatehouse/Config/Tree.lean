import Gatehouse.Json.Node

/-!
Values of settings as they are written in files and variables, before they are read as settings.

Sources are put one over the other with `Tree.overlay`: tables are joined member by member, anything
else replaces what is below it.
-/

namespace Gatehouse.Config

inductive Tree where
  | null
  | bool (value : Bool)
  | integer (value : Int)
  /-- A number with a fraction or an exponent. -/
  | real
  | text (value : String)
  | list (items : List Tree)
  | table (members : List (String × Tree))

namespace Tree

def members : Tree → List (String × Tree)
  | table ms => ms
  | _ => []

def set (ms : List (String × Tree)) (key : String) (value : Tree) : List (String × Tree) :=
  ms.filter (fun m => m.1 != key) ++ [(key, value)]

/-- A table of members in a row; of members with one key the last one counts. -/
def ofMembers (ms : List (String × Tree)) : Tree :=
  table (ms.foldl (fun kept m => set kept m.1 m.2) [])

mutual

def overlay : Tree → Tree → Tree
  | table above, below => table (spread above below.members)
  | above, _ => above

/-- Members put over those of a table, one after the other. -/
def spread : List (String × Tree) → List (String × Tree) → List (String × Tree)
  | [], below => below
  | (key, value) :: above, below =>
    let value :=
      match below.lookup key with
      | some old => value.overlay old
      | none => value
    spread above (set below key value)

end

def nest : List String → Tree → Tree
  | [], value => value
  | key :: keys, value => table [(key, nest keys value)]

mutual

/-- The tree as the reader of typed values takes it: the members of a table in the order of their
keys. -/
def node : Tree → Json.Node
  | null => .null
  | bool b => .bool b
  | integer n => .integer n
  | real => .real
  | text s => .text s
  | list items => .array (nodes items) true
  | table ms => .object ((memberNodes ms).mergeSort fun a b => (compare a.1 b.1).isLE) true

def nodes : List Tree → List Json.Node
  | [] => []
  | t :: ts => t.node :: nodes ts

def memberNodes : List (String × Tree) → List (Option String × Json.Node)
  | [] => []
  | (key, t) :: ms => (some key, t.node) :: memberNodes ms

end

end Tree
end Gatehouse.Config
