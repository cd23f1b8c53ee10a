import Gatehouse.Json.Lenient

/-!
Reading values of a given shape from a JSON text.

A record is written as an object, or as an array of its fields in order. Of an object, unknown
members are passed over and a known one must not come twice; of an array, fields with a default may
be left out at the end. The faults of the text itself (`malformed`) and of its shape (`mismatch`)
are reported in the order in which they stand in the text.
-/

namespace Gatehouse.Json

inductive Fault where
  | malformed
  | mismatch
  /-- A count in the text does not fit in a word, and the program stops. -/
  | overflow
  deriving DecidableEq, Repr

def Fault.message : Fault → String
  | malformed => "not a JSON text"
  | mismatch => "a JSON text of another shape"
  | overflow => "a count that does not fit in a word"

namespace Read

/-- What is wrong with a node that does not have the wanted shape. Lists and objects are not looked
into. -/
def refuse (α : Type) : Node → Except Fault α
  | .array _ _ => .error .mismatch
  | .object _ _ => .error .mismatch
  | node => if (node.halt? 0).isNone then .error .mismatch else .error .malformed

def text : Node → Except Fault String
  | .text s => .ok s
  | node => refuse String node

def integer (low high : Int) : Node → Except Fault Int
  | .integer n => if low ≤ n ∧ n ≤ high then .ok n else refuse Int (.integer n)
  | node => refuse Int node

def natural (high : Nat) (node : Node) : Except Fault Nat :=
  (integer 0 high node).map Int.toNat

def signed64 : Node → Except Fault Int :=
  integer (-9223372036854775808) 9223372036854775807

def optional {α : Type} (read : Node → Except Fault α) : Node → Except Fault (Option α)
  | .null => .ok none
  | node => (read node).map some

def list {α : Type} (read : Node → Except Fault α) : Node → Except Fault (List α)
  | .array items closed => do
    let values ← items.mapM read
    if closed then .ok values else .error .malformed
  | node => refuse (List α) node

/-- One of several words, as a string or as the only member of an object, with value `null`. -/
def choice {α : Type} (words : List (String × α)) : Node → Except Fault α
  | .text s =>
    match words.lookup s with
    | some a => .ok a
    | none => .error .mismatch
  | .object ((key, node) :: rest) closed =>
    match key with
    | none => .error .malformed
    | some s =>
      match words.lookup s, node with
      | none, _ => .error .mismatch
      | some a, .null => if closed && rest.isEmpty then .ok a else .error .malformed
      | some _, node => refuse α node
  | node => refuse α node

structure RecordField (σ : Type) where
  name : String
  isSet : σ → Bool
  read : Node → σ → Except Fault σ

/-- A field kept in an optional slot of the record under construction. -/
def RecordField.slot {σ α : Type} (name : String) (get : σ → Option α) (set : σ → Option α → σ)
    (read : Node → Except Fault α) : RecordField σ where
  name := name
  isSet := fun s => (get s).isSome
  read := fun node s => (read node).map fun a => set s (some a)

def member {σ : Type} (fields : List (RecordField σ)) (s : σ) :
    Option String × Node → Except Fault σ
  | (none, _) => .error .malformed
  | (some key, node) =>
    match fields.find? (·.name == key) with
    | none => if node.isSound then .ok s else .error .malformed
    | some field => if field.isSet s then .error .mismatch else field.read node s

/-- Takes the items of an array as the fields in order; none may be left over. -/
def positional {σ : Type} : List (RecordField σ) → List Node → σ → Except Fault σ
  | _, [], s => .ok s
  | [], _ :: _, _ => .error .malformed
  | field :: fields, node :: nodes, s => do
    positional fields nodes (← field.read node s)

/-- A record, from an object or an array; `finish` supplies defaults and misses what has none. -/
def record {σ α : Type} (fields : List (RecordField σ)) (blank : σ) (finish : σ → Except Fault α) :
    Node → Except Fault α
  | .object members closed => do
    let s ← members.foldlM (member fields) blank
    if closed then finish s else .error .malformed
  | .array items closed => do
    let s ← positional fields items blank
    if closed then finish s else .error .malformed
  | node => refuse α node

def required {α : Type} : Option α → Except Fault α
  | some a => .ok a
  | none => .error .mismatch

def document {α : Type} (read : Node → Except Fault α) (doc : Document) : Except Fault α := do
  let a ← read doc.root
  if doc.ended then .ok a else .error .malformed

end Read
end Gatehouse.Json
