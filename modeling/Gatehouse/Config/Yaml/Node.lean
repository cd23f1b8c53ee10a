import Gatehouse.Config.Tree

/-!
YAML values before their repetitions are put in: a value may have an anchor, and later stand again
where only the anchor's name is written.
-/

namespace Gatehouse.Config.Yaml

inductive Node where
  | scalar (value : Tree)
  | list (items : List Node)
  | table (members : List (String × Node))
  | anchored (name : String) (value : Node)
  /-- The value that last had the anchor. -/
  | reference (name : String)

namespace Node

/-- What stands where nothing is written. -/
def nothing : Node := scalar .null

/-- The values that anchors stand for, the last one first. -/
abbrev Anchors := List (String × Tree)

mutual

/-- The tree of a node after the anchors of what stands before it. -/
def resolve : Anchors → Node → Option (Tree × Anchors)
  | anchors, scalar t => some (t, anchors)
  | anchors, list items => (resolveItems anchors items).map fun (ts, a) => (.list ts, a)
  | anchors, table ms => (resolveMembers anchors ms).map fun (ms, a) => (.ofMembers ms, a)
  | anchors, anchored name n => (resolve anchors n).map fun (t, a) => (t, (name, t) :: a)
  | anchors, reference name => (anchors.lookup name).map (·, anchors)

def resolveItems : Anchors → List Node → Option (List Tree × Anchors)
  | anchors, [] => some ([], anchors)
  | anchors, n :: ns => do
    let (t, anchors) ← resolve anchors n
    let (ts, anchors) ← resolveItems anchors ns
    return (t :: ts, anchors)

def resolveMembers : Anchors → List (String × Node) → Option (List (String × Tree) × Anchors)
  | anchors, [] => some ([], anchors)
  | anchors, (key, n) :: ms => do
    let (t, anchors) ← resolve anchors n
    let (ts, anchors) ← resolveMembers anchors ms
    return ((key, t) :: ts, anchors)

end

def tree? (n : Node) : Option Tree := (n.resolve []).map Prod.fst

end Node
end Gatehouse.Config.Yaml
