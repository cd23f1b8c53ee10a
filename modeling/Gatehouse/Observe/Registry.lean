import Gatehouse.Table

/-!
The registry: which observer stands under which endpoint and token.

It is a map of two levels. `Registry.get?` is its view: `put` overwrites one pair of endpoint and
token, `takeIf` empties one. An endpoint is kept only while somebody observes it.
-/

namespace Gatehouse.Observe

/-- The name of an observer; two observers never share one. -/
abbrev ObserverId := Nat

structure Registry where
  endpoints : Table String (Table String ObserverId)

namespace Registry

def empty : Registry := ⟨Table.empty⟩

def tableAt (r : Registry) (endpoint : String) : Table String ObserverId :=
  (r.endpoints.get? endpoint).getD Table.empty

def get? (r : Registry) (endpoint token : String) : Option ObserverId :=
  (r.tableAt endpoint).get? token

def observers (r : Registry) (endpoint : String) : List ObserverId := (r.tableAt endpoint).values

def size (r : Registry) : Nat := r.endpoints.size

def isEmpty (r : Registry) : Bool := r.endpoints.isEmpty

def count (r : Registry) (endpoint : String) : Nat := (r.tableAt endpoint).size

/-- Puts an observer under an endpoint and a token, and tells which one stood there. -/
def put (r : Registry) (endpoint token : String) (o : ObserverId) : Option ObserverId × Registry :=
  (r.get? endpoint token,
    ⟨r.endpoints.insert endpoint ((r.tableAt endpoint).insert token o)⟩)

def erase (r : Registry) (endpoint token : String) : Registry :=
  let left := (r.tableAt endpoint).erase token
  if left.isEmpty then ⟨r.endpoints.erase endpoint⟩ else ⟨r.endpoints.insert endpoint left⟩

/-- Takes out the observer under an endpoint and a token, if it passes a test. -/
def takeIf (r : Registry) (endpoint token : String) (test : ObserverId → Bool) :
    Option ObserverId × Registry :=
  match r.get? endpoint token with
  | none => (none, r)
  | some o => if test o then (some o, r.erase endpoint token) else (none, r)

theorem get?_put (r : Registry) (e t e' t' : String) (o : ObserverId) :
    (r.put e t o).2.get? e' t' = if e' = e ∧ t' = t then some o else r.get? e' t' := by
  unfold put get? tableAt
  simp only [Table.get?_insert]
  by_cases he : e' = e
  · subst he
    by_cases ht : t' = t <;> simp [Table.get?_insert, ht]
  · simp [he]

end Registry
end Gatehouse.Observe
