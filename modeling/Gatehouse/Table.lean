/-!
Finite maps: pairs of keys and values in the order in which the keys came, each key once.

The view of a table is `get?`: `get?_insert` and `get?_erase` say what the two updates do to it.
-/

namespace Gatehouse

structure Table (κ ν : Type) where
  entries : List (κ × ν)
  nodup : (entries.map Prod.fst).Nodup

namespace Table

variable {κ ν : Type}

def empty : Table κ ν := ⟨[], List.nodup_nil⟩

def size (t : Table κ ν) : Nat := t.entries.length

def isEmpty (t : Table κ ν) : Bool := t.entries.isEmpty

def keys (t : Table κ ν) : List κ := t.entries.map Prod.fst

def values (t : Table κ ν) : List ν := t.entries.map Prod.snd

variable [DecidableEq κ]

/-- The value of a key in a list of pairs. -/
def find (k : κ) : List (κ × ν) → Option ν
  | [] => none
  | (k', v) :: es => if k' = k then some v else find k es

/-- The list with the value of a key replaced, or the pair put at the end. -/
def put (k : κ) (v : ν) : List (κ × ν) → List (κ × ν)
  | [] => [(k, v)]
  | (k', v') :: es => if k' = k then (k, v) :: es else (k', v') :: put k v es

def drop (k : κ) : List (κ × ν) → List (κ × ν)
  | [] => []
  | (k', v') :: es => if k' = k then es else (k', v') :: drop k es

theorem mem_keys_put (k k' : κ) (v : ν) (es : List (κ × ν)) :
    k' ∈ (put k v es).map Prod.fst ↔ k' = k ∨ k' ∈ es.map Prod.fst := by
  induction es with
  | nil => simp [put]
  | cons e es ih =>
    obtain ⟨k'', v''⟩ := e
    simp only [put]
    split
    · next h => subst h; simp
    · simp only [List.map_cons, List.mem_cons, ih]
      constructor <;> rintro (h | h | h) <;> simp_all

theorem nodup_put (k : κ) (v : ν) {es : List (κ × ν)} (h : (es.map Prod.fst).Nodup) :
    ((put k v es).map Prod.fst).Nodup := by
  induction es with
  | nil => simp [put]
  | cons e es ih =>
    obtain ⟨k', v'⟩ := e
    rw [List.map_cons, List.nodup_cons] at h
    simp only [put]
    split
    · next hk => subst hk; simpa using h
    · next hk =>
      rw [List.map_cons, List.nodup_cons]
      refine ⟨fun hm => ?_, ih h.2⟩
      rcases (mem_keys_put k k' v es).1 hm with hm | hm
      · exact hk hm
      · exact h.1 hm

theorem drop_sublist (k : κ) (es : List (κ × ν)) : (drop k es).Sublist es := by
  induction es with
  | nil => exact List.Sublist.refl _
  | cons e es ih =>
    obtain ⟨k', v'⟩ := e
    simp only [drop]
    split
    · exact List.sublist_cons_self _ _
    · exact ih.cons_cons _

theorem nodup_drop (k : κ) {es : List (κ × ν)} (h : (es.map Prod.fst).Nodup) :
    ((drop k es).map Prod.fst).Nodup :=
  List.Sublist.nodup ((drop_sublist k es).map Prod.fst) h

def get? (t : Table κ ν) (k : κ) : Option ν := find k t.entries

def contains (t : Table κ ν) (k : κ) : Bool := (t.get? k).isSome

/-- The table with the key bound to the value, whatever it was bound to before. -/
def insert (t : Table κ ν) (k : κ) (v : ν) : Table κ ν := ⟨put k v t.entries, nodup_put k v t.nodup⟩

def erase (t : Table κ ν) (k : κ) : Table κ ν := ⟨drop k t.entries, nodup_drop k t.nodup⟩

theorem find_eq_none_iff (k : κ) (es : List (κ × ν)) :
    find k es = none ↔ k ∉ es.map Prod.fst := by
  induction es with
  | nil => simp [find]
  | cons e es ih =>
    obtain ⟨k', v'⟩ := e
    simp only [find, List.map_cons, List.mem_cons]
    split
    · next h => simp [h]
    · next h => simp [ih, Ne.symm h]

theorem find_put (k k' : κ) (v : ν) (es : List (κ × ν)) :
    find k' (put k v es) = if k' = k then some v else find k' es := by
  induction es with
  | nil => by_cases h : k' = k <;> simp [put, find, h, Ne.symm]
  | cons e es ih =>
    obtain ⟨k'', v''⟩ := e
    simp only [put]
    split
    · next h =>
      subst h
      by_cases h' : k' = k''
      · simp [find, h']
      · simp [find, h', Ne.symm h']
    · next h =>
      by_cases h' : k'' = k'
      · subst h'; simp [find, h]
      · simp [find, h', ih]

theorem find_drop_self (k : κ) {es : List (κ × ν)} (h : (es.map Prod.fst).Nodup) :
    find k (drop k es) = none := by
  induction es with
  | nil => rfl
  | cons e es ih =>
    obtain ⟨k', v'⟩ := e
    rw [List.map_cons, List.nodup_cons] at h
    simp only [drop]
    split
    · next hk => subst hk; exact (find_eq_none_iff _ _).2 h.1
    · next hk => simp [find, hk, ih h.2]

theorem find_drop_of_ne {k k' : κ} (hne : k' ≠ k) (es : List (κ × ν)) :
    find k' (drop k es) = find k' es := by
  induction es with
  | nil => rfl
  | cons e es ih =>
    obtain ⟨k'', v''⟩ := e
    simp only [drop]
    split
    · next hk => subst hk; simp [find, Ne.symm hne]
    · simp [find, ih]

@[simp] theorem get?_empty (k : κ) : (empty : Table κ ν).get? k = none := rfl

theorem get?_insert (t : Table κ ν) (k k' : κ) (v : ν) :
    (t.insert k v).get? k' = if k' = k then some v else t.get? k' := find_put k k' v t.entries

theorem get?_erase (t : Table κ ν) (k k' : κ) :
    (t.erase k).get? k' = if k' = k then none else t.get? k' := by
  split
  · next h => subst h; exact find_drop_self k' t.nodup
  · next h => exact find_drop_of_ne h t.entries

@[simp] theorem get?_insert_self (t : Table κ ν) (k : κ) (v : ν) :
    (t.insert k v).get? k = some v := by simp [get?_insert]

@[simp] theorem get?_erase_self (t : Table κ ν) (k : κ) : (t.erase k).get? k = none := by
  simp [get?_erase]

end Table
end Gatehouse
