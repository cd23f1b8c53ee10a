/-!
Cutting text at a separator, putting pieces together again, and trimming the ends.

Main statements: a cut text is the join of its pieces (`joinWith_splitOn`), no piece holds the
separator (`not_mem_of_mem_splitOn`), and joined pieces without the separator are cut back into
themselves (`splitOn_joinWith`).
-/

namespace Gatehouse.Text

/-- The pieces between the separators; `n` separators give `n + 1` pieces. -/
def splitOn (sep : Char) : List Char → List (List Char)
  | [] => [[]]
  | c :: cs =>
    if c = sep then [] :: splitOn sep cs
    else
      match splitOn sep cs with
      | [] => [[c]]
      | piece :: pieces => (c :: piece) :: pieces

/-- The pieces with one separator between neighbours. -/
def joinWith (sep : Char) : List (List Char) → List Char
  | [] => []
  | [piece] => piece
  | piece :: next :: pieces => piece ++ sep :: joinWith sep (next :: pieces)

theorem splitOn_ne_nil (sep : Char) (cs : List Char) : splitOn sep cs ≠ [] := by
  cases cs with
  | nil => simp [splitOn]
  | cons c cs =>
    unfold splitOn
    split
    · simp
    · split <;> simp

theorem joinWith_cons (sep : Char) (piece : List Char) {pieces : List (List Char)}
    (h : pieces ≠ []) :
    joinWith sep (piece :: pieces) = piece ++ sep :: joinWith sep pieces := by
  cases pieces with
  | nil => exact absurd rfl h
  | cons next pieces => rfl

theorem joinWith_splitOn (sep : Char) (cs : List Char) : joinWith sep (splitOn sep cs) = cs := by
  induction cs with
  | nil => rfl
  | cons c cs ih =>
    unfold splitOn
    split
    · next h => rw [joinWith_cons sep [] (splitOn_ne_nil sep cs), ih, h]; rfl
    · split
      · next h => exact absurd h (splitOn_ne_nil sep cs)
      · next piece pieces h =>
        rw [h] at ih
        cases pieces with
        | nil => simpa [joinWith] using ih
        | cons next pieces => simpa [joinWith] using ih

theorem not_mem_of_mem_splitOn (sep : Char) :
    ∀ (cs piece : List Char), piece ∈ splitOn sep cs → sep ∉ piece
  | [], piece, h => by simp [splitOn] at h; simp [h]
  | c :: cs, piece, h => by
    have ih := not_mem_of_mem_splitOn sep cs
    unfold splitOn at h
    split at h
    · rcases List.mem_cons.1 h with rfl | h
      · simp
      · exact ih _ h
    · next hne =>
      split at h
      · next hnil => exact absurd hnil (splitOn_ne_nil sep cs)
      · next p ps hps =>
        rcases List.mem_cons.1 h with rfl | h
        · have := ih p (by simp [hps])
          simp [this, Ne.symm hne]
        · exact ih _ (by simp [hps, h])

theorem splitOn_of_not_mem {sep : Char} : ∀ {cs : List Char}, sep ∉ cs → splitOn sep cs = [cs]
  | [], _ => rfl
  | c :: cs, h => by
    have hc : c ≠ sep := fun e => h (by simp [e])
    have ih : splitOn sep cs = [cs] := splitOn_of_not_mem fun m => h (by simp [m])
    simp [splitOn, hc, ih]

/-- Text around a separator is cut apart on either side. -/
theorem splitOn_append (sep : Char) (more : List Char) :
    ∀ cs : List Char, splitOn sep (cs ++ sep :: more) = splitOn sep cs ++ splitOn sep more
  | [] => by simp [splitOn]
  | c :: cs => by
    have ih := splitOn_append sep more cs
    obtain ⟨piece, pieces, hcs⟩ := List.exists_cons_of_ne_nil (splitOn_ne_nil sep cs)
    by_cases hc : c = sep
    · simp [splitOn, hc, ih]
    · simp [splitOn, hc, ih, hcs]

theorem splitOn_append_sep {sep : Char} {piece : List Char} (cs : List Char) (h : sep ∉ piece) :
    splitOn sep (piece ++ sep :: cs) = piece :: splitOn sep cs := by
  rw [splitOn_append, splitOn_of_not_mem h]
  rfl

/-- Pieces that do not hold the separator survive joining and cutting. -/
theorem splitOn_joinWith {sep : Char} :
    ∀ {pieces : List (List Char)}, pieces ≠ [] → (∀ p ∈ pieces, sep ∉ p) →
      splitOn sep (joinWith sep pieces) = pieces
  | [], h, _ => absurd rfl h
  | [p], _, h => splitOn_of_not_mem (h p (by simp))
  | p :: q :: ps, _, h => by
    rw [joinWith_cons sep p (by simp), splitOn_append_sep _ (h p (by simp)),
      splitOn_joinWith (by simp) (fun x hx => h x (by simp [List.mem_cons.1 hx]))]

/-- Leaves out the characters of a class at the end. -/
def trimEndWith (drop : Char → Bool) (cs : List Char) : List Char :=
  (cs.reverse.dropWhile drop).reverse

theorem dropWhile_eq_self {drop : Char → Bool} {cs : List Char}
    (h : ∀ c ∈ cs.head?, drop c = false) : cs.dropWhile drop = cs := by
  cases cs with
  | nil => rfl
  | cons c cs => rw [List.dropWhile_cons_of_neg (by simp [h c rfl])]

theorem trimEndWith_eq_self {drop : Char → Bool} {cs : List Char}
    (h : ∀ c ∈ cs.getLast?, drop c = false) : trimEndWith drop cs = cs := by
  rw [trimEndWith, dropWhile_eq_self (by simpa using h), List.reverse_reverse]

/-- Leaves out the characters of a class at both ends. -/
def trimWith (drop : Char → Bool) (cs : List Char) : List Char :=
  trimEndWith drop (cs.dropWhile drop)

/-- What follows a given beginning, if the text has it. -/
def after? : List Char → List Char → Option (List Char)
  | [], cs => some cs
  | _ :: _, [] => none
  | p :: ps, c :: cs => if p = c then after? ps cs else none

/-- What precedes a given end, if the text has it. -/
def before? (ending cs : List Char) : Option (List Char) :=
  (after? ending.reverse cs.reverse).map List.reverse

theorem after?_eq_some_iff {start cs rest : List Char} :
    after? start cs = some rest ↔ cs = start ++ rest := by
  induction start generalizing cs with
  | nil => simp [after?, eq_comm]
  | cons p ps ih =>
    cases cs with
    | nil => simp [after?]
    | cons c cs =>
      by_cases h : p = c
      · subst h; simp [after?, ih]
      · simp [after?, h, Ne.symm h]

theorem before?_eq_some_iff {ending cs rest : List Char} :
    before? ending cs = some rest ↔ cs = rest ++ ending := by
  simp only [before?, Option.map_eq_some_iff, after?_eq_some_iff]
  constructor
  · rintro ⟨r, h, rfl⟩
    have := congrArg List.reverse h
    simpa using this
  · rintro rfl
    exact ⟨rest.reverse, by simp, by simp⟩

end Gatehouse.Text
