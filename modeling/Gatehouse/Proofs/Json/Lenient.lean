import Gatehouse.Json.Lenient

/-!
What a reader of any value comes to. A value is `Readable`, or it is given up with the reader behind
it (`GivenUpBehind`), or the reader is lost within it. The first two are put as relations, one case
for each kind of value, and the reader is shown to tell them apart (`halt?_eq_none_iff`,
`halt?_eq_behind_iff`), so that it gets past exactly the values of these two kinds
(`halt?_ne_within_iff`).
-/

namespace Gatehouse.Json.Node

/-- A value of any shape that is read to its end. It has at most so many lists and objects in each
other. -/
inductive Readable : Nat → Node → Prop where
  | null {depth : Nat} : Readable depth null
  | bool {depth : Nat} (value : Bool) : Readable depth (bool value)
  | real {depth : Nat} : Readable depth real
  | text {depth : Nat} (value : String) : Readable depth (text value)
  | integer {depth : Nat} {n : Int} : (Numeral.ofNat n.natAbs).halt? = none →
      Readable depth (integer n)
  | array {depth : Nat} {items : List Node} : (∀ item ∈ items, Readable depth item) →
      Readable (depth + 1) (array items true)
  | object {depth : Nat} {members : List (Option String × Node)} :
      (∀ m ∈ members, m.1 ≠ none) → (∀ m ∈ members, Readable depth m.2) →
      Readable (depth + 1) (object members true)

/-- A value that cannot be read because of how it ends: of a list or an object the last value does,
and all before that can be read. -/
inductive GivenUpBehind : Nat → Node → Prop where
  | garbled {depth : Nat} : GivenUpBehind depth (garbled .behind)
  | integer {depth : Nat} {n : Int} : (Numeral.ofNat n.natAbs).halt? = some .behind →
      GivenUpBehind depth (integer n)
  | array {depth : Nat} {items : List Node} {last : Node} :
      (∀ item ∈ items, Readable depth item) → GivenUpBehind depth last →
      GivenUpBehind (depth + 1) (array (items ++ [last]) true)
  | object {depth : Nat} {members : List (Option String × Node)} {key : String} {last : Node} :
      (∀ m ∈ members, m.1 ≠ none) → (∀ m ∈ members, Readable depth m.2) →
      GivenUpBehind depth last →
      GivenUpBehind (depth + 1) (object (members ++ [(some key, last)]) true)

/-- The reader gets to the end of the value, with it or without. -/
def Passable (depth : Nat) (node : Node) : Prop := Readable depth node ∨ GivenUpBehind depth node

/-! ## Values in a row -/

section Row

variable {α : Type} {halt : α → Option Halt} {xs : List α}

theorem enclosingHalt?_eq_none_iff :
    enclosingHalt? (xs.map halt) = none ↔ ∀ x ∈ xs, halt x = none := by
  induction xs with
  | nil => simp [enclosingHalt?]
  | cons x xs ih =>
    rw [List.map_cons, List.forall_mem_cons]
    cases hx : halt x with
    | none => simp only [enclosingHalt?, ih, true_and]
    | some h => cases hxs : xs.map halt <;> simp [enclosingHalt?]

/-- The reader stands behind a row if it stands behind the last value, and was not stopped before
that. -/
theorem enclosingHalt?_eq_behind_iff : enclosingHalt? (xs.map halt) = some .behind ↔
    ∃ before last, xs = before ++ [last] ∧ (∀ x ∈ before, halt x = none) ∧
      halt last = some .behind := by
  induction xs with
  | nil => simp [enclosingHalt?]
  | cons x xs ih =>
    rw [List.map_cons]
    cases hx : halt x with
    | none =>
      rw [enclosingHalt?, ih]
      constructor
      · rintro ⟨before, last, rfl, hbefore, hlast⟩
        exact ⟨x :: before, last, rfl, List.forall_mem_cons.mpr ⟨hx, hbefore⟩, hlast⟩
      · rintro ⟨before, last, heq, hbefore, hlast⟩
        cases before with
        | nil =>
          obtain ⟨rfl, -⟩ := List.cons.inj heq
          rw [hx] at hlast
          cases hlast
        | cons y before =>
          obtain ⟨rfl, rfl⟩ := List.cons.inj heq
          exact ⟨before, last, rfl, (List.forall_mem_cons.mp hbefore).2, hlast⟩
    | some h =>
      constructor
      · cases xs with
        | nil =>
          rintro ⟨rfl⟩
          exact ⟨[], x, rfl, by simp, hx⟩
        | cons y ys =>
          intro hwithin
          cases hwithin
      · rintro ⟨before, last, heq, hbefore, hlast⟩
        cases before with
        | nil =>
          obtain ⟨rfl, rfl⟩ := List.cons.inj heq
          rw [← hx, hlast]
          rfl
        | cons y before =>
          obtain ⟨rfl, -⟩ := List.cons.inj heq
          rw [(List.forall_mem_cons.mp hbefore).1] at hx
          cases hx

end Row

/-! ## Trees -/

variable {depth : Nat} {node : Node}

/-- A member is read like its value, if its key is a text. -/
theorem memberHalt_eq_none_iff {m : Option String × Node} :
    (if m.1.isSome then halt? depth m.2 else some .within) = none ↔
      m.1 ≠ none ∧ halt? depth m.2 = none := by
  cases m.1 <;> simp

theorem memberHalt_eq_behind_iff {m : Option String × Node} :
    (if m.1.isSome then halt? depth m.2 else some .within) = some .behind ↔
      m.1 ≠ none ∧ halt? depth m.2 = some .behind := by
  cases m.1 <;> simp

theorem Readable.halt?_eq (h : Readable depth node) : halt? depth node = none := by
  induction h with
  | @null depth | @bool depth | @real depth | @text depth => cases depth <;> rfl
  | @integer depth _ hfinite => cases depth <;> exact hfinite
  | array _ ih => exact enclosingHalt?_eq_none_iff.mpr ih
  | object hkeys _ ih =>
    exact enclosingHalt?_eq_none_iff.mpr fun m hm =>
      memberHalt_eq_none_iff.mpr ⟨hkeys m hm, ih m hm⟩

theorem readable_of_halt? (h : halt? depth node = none) : Readable depth node := by
  fun_induction halt? depth node with
  | case1 depth items ih =>
    exact .array fun item hitem => ih item (enclosingHalt?_eq_none_iff.mp h item hitem)
  | case3 depth members ih =>
    have hmembers := fun m hm => memberHalt_eq_none_iff.mp (enclosingHalt?_eq_none_iff.mp h m hm)
    exact .object (fun m hm => (hmembers m hm).1) fun m hm => ih m (hmembers m hm).2
  | case7 depth n => exact .integer h
  | case10 depth node =>
    cases node with
    | null => exact .null
    | bool value => exact .bool value
    | real => exact .real
    | text value => exact .text value
    | array => cases depth <;> simp_all
    | object => cases depth <;> simp_all
    | _ => simp_all
  | _ => cases h

theorem halt?_eq_none_iff : halt? depth node = none ↔ Readable depth node :=
  ⟨readable_of_halt?, Readable.halt?_eq⟩

theorem GivenUpBehind.halt?_eq (h : GivenUpBehind depth node) :
    halt? depth node = some .behind := by
  induction h with
  | @garbled depth => cases depth <;> rfl
  | @integer depth _ hinfinite => cases depth <;> exact hinfinite
  | array hitems _ ih =>
    exact enclosingHalt?_eq_behind_iff.mpr
      ⟨_, _, rfl, fun item hitem => (hitems item hitem).halt?_eq, ih⟩
  | @object _ _ key _ hkeys hvalues _ ih =>
    exact enclosingHalt?_eq_behind_iff.mpr
      ⟨_, _, rfl, fun m hm => memberHalt_eq_none_iff.mpr ⟨hkeys m hm, (hvalues m hm).halt?_eq⟩, ih⟩

theorem givenUpBehind_of_halt? (h : halt? depth node = some .behind) :
    GivenUpBehind depth node := by
  fun_induction halt? depth node with
  | case1 depth items ih =>
    obtain ⟨before, last, rfl, hbefore, hlast⟩ := enclosingHalt?_eq_behind_iff.mp h
    exact .array (fun item hitem => readable_of_halt? (hbefore item hitem)) (ih last hlast)
  | case3 depth members ih =>
    obtain ⟨before, ⟨key, last⟩, rfl, hbefore, hlast⟩ := enclosingHalt?_eq_behind_iff.mp h
    have hmembers := fun m hm => memberHalt_eq_none_iff.mp (hbefore m hm)
    obtain ⟨hkey, hlast⟩ := memberHalt_eq_behind_iff.mp hlast
    obtain ⟨key, rfl⟩ := Option.ne_none_iff_exists'.mp hkey
    exact .object (fun m hm => (hmembers m hm).1) (fun m hm => readable_of_halt? (hmembers m hm).2)
      (ih _ hlast)
  | case7 depth n => exact .integer h
  | case8 depth halt =>
    cases h
    exact .garbled
  | _ => cases h

theorem halt?_eq_behind_iff : halt? depth node = some .behind ↔ GivenUpBehind depth node :=
  ⟨givenUpBehind_of_halt?, GivenUpBehind.halt?_eq⟩

theorem halt?_ne_within_iff : halt? depth node ≠ some .within ↔ Passable depth node := by
  rw [Passable, ← halt?_eq_none_iff, ← halt?_eq_behind_iff]
  cases halt? depth node with
  | none => simp
  | some halt => cases halt <;> simp

end Gatehouse.Json.Node
