import Gatehouse.Observe.Registry

/-!
The registry through its view `Registry.get?`: taking one observer out empties one place and no
other (`get?_takeIf`), even where the whole endpoint goes with it.
-/

namespace Gatehouse

namespace Table

variable {κ ν : Type} [DecidableEq κ]

theorem get?_eq_none_of_isEmpty {t : Table κ ν} (h : t.isEmpty = true) (k : κ) :
    t.get? k = none := by
  rw [isEmpty, List.isEmpty_iff] at h
  rw [get?, h]
  rfl

theorem find_eq_some_iff {es : List (κ × ν)} (h : (es.map Prod.fst).Nodup) {k : κ} {v : ν} :
    find k es = some v ↔ (k, v) ∈ es := by
  induction es with
  | nil => simp [find]
  | cons e es ih =>
    obtain ⟨k', v'⟩ := e
    rw [List.map_cons, List.nodup_cons] at h
    rw [find, List.mem_cons]
    by_cases hk : k' = k
    · subst hk
      rw [if_pos rfl]
      constructor
      · rintro ⟨⟩
        exact .inl rfl
      · rintro (he | he)
        · cases he
          rfl
        · exact absurd (List.mem_map_of_mem he) h.1
    · rw [if_neg hk, ih h.2]
      constructor
      · exact .inr
      · rintro (he | he)
        · cases he
          exact absurd rfl hk
        · exact he

theorem mem_entries_iff {t : Table κ ν} {k : κ} {v : ν} :
    (k, v) ∈ t.entries ↔ t.get? k = some v :=
  (find_eq_some_iff t.nodup).symm

end Table

namespace Observe.Registry

variable (r : Registry) (e t e' t' : String)

theorem get?_empty : empty.get? e t = none := rfl

theorem get?_erase :
    (r.erase e t).get? e' t' = if e' = e ∧ t' = t then none else r.get? e' t' := by
  rw [erase]
  split
  · next hempty =>
    -- no other token is left on the endpoint that goes
    have hleft : ((r.tableAt e).erase t).get? t' = none := Table.get?_eq_none_of_isEmpty hempty t'
    rw [Table.get?_erase] at hleft
    by_cases he : e' = e
    · subst he
      by_cases ht : t' = t
      · simp [get?, tableAt, ht]
      · rw [if_neg ht] at hleft
        simpa [get?, tableAt, ht] using hleft.symm
    · simp [get?, tableAt, Table.get?_erase, he]
  · by_cases he : e' = e
    · subst he
      simp [get?, tableAt, Table.get?_erase]
    · simp [get?, tableAt, Table.get?_insert, he]

theorem get?_takeIf (test : ObserverId → Bool) :
    (r.takeIf e t test).2.get? e' t' =
      if e' = e ∧ t' = t ∧ (r.get? e t).any test = true then none else r.get? e' t' := by
  rw [takeIf]
  split
  · next h => simp [h]
  · next o h =>
    by_cases ho : test o = true
    · simp [h, ho, get?_erase]
    · simp [h, ho]

/-- Whoever stands under some token is among the observers of the endpoint. -/
theorem mem_observers {o : ObserverId} (h : r.get? e t = some o) : o ∈ r.observers e :=
  List.mem_map.mpr ⟨(t, o), Table.mem_entries_iff.mpr h, rfl⟩

/-- The observers of an endpoint stand under some token. -/
theorem exists_of_mem_observers {o : ObserverId} (h : o ∈ r.observers e) :
    ∃ t, r.get? e t = some o := by
  obtain ⟨⟨t, o'⟩, hentry, rfl⟩ := List.mem_map.mp h
  exact ⟨t, Table.mem_entries_iff.mp hentry⟩

/-- Where everyone stands under one token of their own, no two observers of an endpoint have the
same. -/
theorem nodup_tokens_observers {tokenOf : ObserverId → String}
    (h : ∀ t o, r.get? e t = some o → tokenOf o = t) : ((r.observers e).map tokenOf).Nodup := by
  have hkeys : (r.observers e).map tokenOf = (r.tableAt e).entries.map Prod.fst := by
    rw [observers, Table.values, List.map_map]
    refine List.map_congr_left fun entry hentry => ?_
    obtain ⟨t, o⟩ := entry
    exact h t o (Table.mem_entries_iff.mp hentry)
  rw [hkeys]
  exact (r.tableAt e).nodup

theorem takeIf_fst (test : ObserverId → Bool) :
    (r.takeIf e t test).1 = (r.get? e t).filter test := by
  rw [takeIf]
  split
  · next h => rw [h, Option.filter_none]
  · next o h =>
    by_cases ho : test o = true
    · simp [h, ho, Option.filter]
    · simp [h, ho, Option.filter]

end Observe.Registry
end Gatehouse
