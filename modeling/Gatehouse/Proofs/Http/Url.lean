import Gatehouse.Http.Url
import Gatehouse.Proofs.Http.Percent
import Mathlib.Data.List.Basic
import Mathlib.Data.List.TakeWhile

/-!
What is sent for a URL. Behind the URL of a server, whatever else is written is cut into segments,
and these are carried out after what is kept of the path of the server's URL (`exists_kept`). A
segment that is carried out is kept in codes, which read the same, or it takes others away
(`size_walk`); so a path that is as long as its segments has lost none of them.
-/

namespace Gatehouse.Http.Url

open Text (utf8)

/-! ## Codes in paths -/

theorem value?_high : ∀ n < 256, 128 ≤ n → Text.Hex.value? (Char.ofNat n) = none := by
  decide +kernel

theorem foreign_of_coded : ∀ n < 128, isCodedInPath (Char.ofNat n) = true →
    n ≠ 37 ∧ Text.Hex.value? (Char.ofNat n) = none := by decide +kernel

theorem sparesCodes_path : Percent.SparesCodes isCodedInPath where
  foreign := by
    intro c hc b hb
    rcases Nat.lt_or_ge c.toNat 128 with hascii | hhigh
    · rw [Text.utf8EncodeChar_ascii hascii, List.mem_singleton] at hb
      have hforeign := foreign_of_coded c.toNat hascii (by rwa [Char.ofNat_toNat])
      have hbyte : b.toNat = c.toNat := by
        rw [hb, UInt8.toNat_ofNat']
        omega
      refine ⟨fun heq => hforeign.1 ?_, hbyte ▸ hforeign.2⟩
      rw [← hbyte, heq]
      rfl
    · have hbyte := Text.utf8EncodeChar_high hhigh b hb
      refine ⟨?_, value?_high b.toNat b.toNat_lt hbyte⟩
      rintro rfl
      exact absurd hbyte (by decide)
  ascii := by
    intro c hc
    simp only [isCodedInPath, isUnsafe, Bool.or_eq_false_iff, decide_eq_false_iff_not] at hc
    omega

/-! ## Segments -/

/-- The path of segments that were carried out, the last one first. -/
def pathOf (stack : List (List Char)) : List Char := stack.reverse.flatMap ('/' :: ·)

theorem pathOf_cons (segment : List Char) (stack : List (List Char)) :
    pathOf (segment :: stack) = pathOf stack ++ '/' :: segment := by
  simp [pathOf]

theorem cons_joinWith {segments : List (List Char)} (h : segments ≠ []) :
    '/' :: Text.joinWith '/' segments = segments.flatMap ('/' :: ·) := by
  induction segments with
  | nil => exact absurd rfl h
  | cons segment segments ih =>
    by_cases hlast : segments = []
    · simp [hlast, Text.joinWith]
    · rw [Text.joinWith_cons '/' segment hlast, ih hlast, List.flatMap_cons, List.cons_append]

/-- A path tells its segments. -/
theorem pathOf_inj {stack stack' : List (List Char)} (h : pathOf stack = pathOf stack')
    (hfree : ∀ segment ∈ stack, '/' ∉ segment) (hfree' : ∀ segment ∈ stack', '/' ∉ segment) :
    stack = stack' := by
  cases stack with
  | nil =>
    cases stack' with
    | nil => rfl
    | cons segment' stack' => simp [pathOf] at h
  | cons segment stack =>
    cases stack' with
    | nil => simp [pathOf] at h
    | cons segment' stack' =>
      have hne : (segment :: stack).reverse ≠ [] := by simp
      have hne' : (segment' :: stack').reverse ≠ [] := by simp
      unfold pathOf at h
      rw [← cons_joinWith hne, ← cons_joinWith hne'] at h
      have hcut := congrArg (Text.splitOn '/') (List.cons.inj h).2
      rwa [Text.splitOn_joinWith hne fun p hp => hfree p (List.mem_reverse.mp hp),
        Text.splitOn_joinWith hne' fun p hp => hfree' p (List.mem_reverse.mp hp),
        List.reverse_inj] at hcut

/-- Carries out a segment that is not the last one. -/
def step (kept : List (List Char)) (segment : List Char) : List (List Char) :=
  match dots? segment with
  | none => Percent.encode isCodedInPath segment :: kept
  | some n => kept.drop (n - 1)

theorem walk_append {more : List (List Char)} (hmore : more ≠ []) (first : List (List Char)) :
    ∀ kept, walk kept (first ++ more) = walk (first.foldl step kept) more := by
  induction first with
  | nil => exact fun _ => rfl
  | cons segment first ih =>
    intro kept
    have hgoes : (first ++ more).isEmpty = false := by simp [hmore]
    rw [List.cons_append, walk, List.foldl_cons, step]
    cases dots? segment with
    | none => exact ih _
    | some n =>
      simp only [hgoes, Bool.false_eq_true, if_false]
      exact ih _

theorem walk_ne_nil {segments : List (List Char)} (h : segments ≠ []) (kept : List (List Char)) :
    walk kept segments ≠ [] := by
  obtain ⟨init, last, rfl⟩ := (List.eq_nil_or_concat segments).resolve_left h
  rw [List.concat_eq_append, walk_append (List.cons_ne_nil _ _), walk]
  split <;> simp [walk]

/-- Segments that are no dots are all kept. -/
theorem walk_of_dotless {segments : List (List Char)}
    (h : ∀ segment ∈ segments, dots? segment = none) :
    ∀ kept, walk kept segments =
      (segments.map (Percent.encode isCodedInPath)).reverse ++ kept := by
  induction segments with
  | nil => exact fun _ => rfl
  | cons segment segments ih =>
    obtain ⟨hsegment, hsegments⟩ := List.forall_mem_cons.mp h
    intro kept
    rw [walk, hsegment]
    simp only [ih hsegments, List.map_cons, List.reverse_cons, List.append_assoc,
      List.singleton_append]

/-- The segment is one: no slash or question mark is in it. -/
def IsWhole (segment : List Char) : Prop := '/' ∉ segment ∧ '?' ∉ segment

theorem digit_ne : ∀ n < 16, Percent.digit n ≠ '/' ∧ Percent.digit n ≠ '?' := by decide

theorem mem_encode {c : Char} {segment : List Char} (hc : c = '/' ∨ c = '?')
    (h : c ∈ Percent.encode isCodedInPath segment) : c ∈ segment ∧ isCodedInPath c = false := by
  obtain ⟨d, hd, hmem⟩ := List.mem_flatMap.mp h
  cases hcoded : isCodedInPath d with
  | false =>
    rw [hcoded] at hmem
    obtain rfl := List.mem_singleton.mp hmem
    exact ⟨hd, hcoded⟩
  | true =>
    rw [hcoded] at hmem
    obtain ⟨b, -, hb⟩ := List.mem_flatMap.mp hmem
    rcases Percent.mem_code hb with rfl | ⟨n, hn, rfl⟩
    · rcases hc with hc | hc <;> cases hc
    · rcases hc with hc | hc
      · exact absurd hc (digit_ne n hn).1
      · exact absurd hc (digit_ne n hn).2

theorem isWhole_encode {segment : List Char} (h : '/' ∉ segment) :
    IsWhole (Percent.encode isCodedInPath segment) := by
  refine ⟨fun hmem => h (mem_encode (.inl rfl) hmem).1, fun hmem => ?_⟩
  have hcoded := (mem_encode (.inr rfl) hmem).2
  exact absurd hcoded (by decide)

theorem isWhole_step {kept : List (List Char)} {segment : List Char}
    (hkept : ∀ s ∈ kept, IsWhole s) (h : '/' ∉ segment) : ∀ s ∈ step kept segment, IsWhole s := by
  unfold step
  split
  · exact List.forall_mem_cons.mpr ⟨isWhole_encode h, hkept⟩
  · exact fun s hs => hkept s (List.mem_of_mem_drop hs)

theorem isWhole_foldl_step {segments : List (List Char)} (h : ∀ s ∈ segments, '/' ∉ s) :
    ∀ kept, (∀ s ∈ kept, IsWhole s) → ∀ s ∈ segments.foldl step kept, IsWhole s := by
  induction segments with
  | nil => exact fun _ hkept => hkept
  | cons segment segments ih =>
    obtain ⟨hsegment, hsegments⟩ := List.forall_mem_cons.mp h
    exact fun kept hkept => ih hsegments _ (isWhole_step hkept hsegment)

theorem isWhole_walk {segments : List (List Char)} (hne : segments ≠ [])
    (h : ∀ s ∈ segments, '/' ∉ s) {kept : List (List Char)} (hkept : ∀ s ∈ kept, IsWhole s) :
    ∀ s ∈ walk kept segments, IsWhole s := by
  obtain ⟨init, last, rfl⟩ := (List.eq_nil_or_concat segments).resolve_left hne
  rw [List.concat_eq_append] at h ⊢
  have hinit : ∀ s ∈ init.foldl step kept, IsWhole s :=
    isWhole_foldl_step (fun s hs => h s (List.mem_append_left _ hs)) kept hkept
  have hlast : '/' ∉ last := h last (by simp)
  rw [walk_append (List.cons_ne_nil _ _), walk]
  split
  · exact List.forall_mem_cons.mpr ⟨isWhole_encode hlast, hinit⟩
  · refine List.forall_mem_cons.mpr ⟨⟨by simp, by simp⟩, fun s hs => ?_⟩
    exact hinit s (List.mem_of_mem_drop hs)

/-- The bytes that segments are read as, each with its slash. -/
def size : List (List Char) → Nat
  | [] => 0
  | segment :: segments => (Percent.decode (utf8 segment)).length + 1 + size segments

theorem size_cons (segment : List Char) (segments : List (List Char)) :
    size (segment :: segments) = (Percent.decode (utf8 segment)).length + 1 + size segments := rfl

theorem size_encode (segment : List Char) (segments : List (List Char)) :
    size (Percent.encode isCodedInPath segment :: segments) = size (segment :: segments) := by
  rw [size_cons, size_cons, Percent.decode_encode sparesCodes_path]

theorem size_drop_le (n : Nat) (segments : List (List Char)) :
    size (segments.drop n) ≤ size segments := by
  induction segments generalizing n with
  | nil => simp
  | cons segment segments ih =>
    cases n with
    | zero => exact Nat.le_refl _
    | succ n =>
      have := ih n
      rw [List.drop_succ_cons, size_cons]
      omega

theorem ne_nil_of_dots {segment : List Char} {n : Nat} (h : dots? segment = some n) :
    segment ≠ [] := by
  rintro rfl
  cases h

/-- What is carried out gets no larger, and smaller if a segment is dots. -/
theorem size_walk (segments : List (List Char)) : ∀ kept,
    size (walk kept segments) ≤ size kept + size segments ∧
      ((∃ segment ∈ segments, dots? segment ≠ none) →
        size (walk kept segments) < size kept + size segments) := by
  induction segments with
  | nil => simp [walk]
  | cons segment segments ih =>
    intro kept
    rw [walk, size_cons]
    cases hdots : dots? segment with
    | none =>
      obtain ⟨hle, hlt⟩ := ih (Percent.encode isCodedInPath segment :: kept)
      rw [size_encode, size_cons] at hle hlt
      refine ⟨by dsimp only; omega, ?_⟩
      rintro ⟨later, hmem, hlater⟩
      have hmore : later ∈ segments := (List.mem_cons.mp hmem).resolve_left fun heq =>
        hlater (heq ▸ hdots)
      have := hlt ⟨later, hmore, hlater⟩
      dsimp only
      omega
    | some n =>
      have hdrop := size_drop_le (n - 1) kept
      have hread : 0 < (Percent.decode (utf8 segment)).length :=
        List.length_pos_iff.mpr (Percent.decode_ne_nil (Text.utf8_ne_nil (ne_nil_of_dots hdots)))
      dsimp only
      split
      · next hlast =>
        obtain rfl := List.isEmpty_iff.mp hlast
        have hend : size (walk ([] :: kept.drop (n - 1)) []) = 1 + size (kept.drop (n - 1)) :=
          size_cons [] _
        omega
      · have := (ih (kept.drop (n - 1))).1
        omega

theorem size_le (segments : List (List Char)) :
    size segments ≤ (utf8 (segments.flatMap ('/' :: ·))).length := by
  induction segments with
  | nil => exact Nat.le_refl _
  | cons segment segments ih =>
    have hread := Percent.length_decode_le (utf8 segment)
    have hslash : (String.utf8EncodeChar '/').length = 1 := rfl
    rw [size_cons, List.flatMap_cons, Text.utf8_append, Text.utf8_cons]
    simp only [List.length_append, hslash]
    omega

theorem size_splitOn_le (cs : List Char) : size (Text.splitOn '/' cs) ≤ (utf8 cs).length + 1 := by
  have hle := size_le (Text.splitOn '/' cs)
  have hslash : (String.utf8EncodeChar '/').length = 1 := rfl
  rw [← cons_joinWith (Text.splitOn_ne_nil '/' cs), Text.joinWith_splitOn, Text.utf8_cons,
    List.length_append, hslash] at hle
  omega

theorem not_mem_pathOf {stack : List (List Char)} (h : ∀ s ∈ stack, IsWhole s) :
    '?' ∉ pathOf stack := by
  intro hmem
  obtain ⟨segment, hsegment, hc⟩ := List.mem_flatMap.mp hmem
  rcases List.mem_cons.mp hc with hc | hc
  · cases hc
  · exact (h segment (List.mem_reverse.mp hsegment)).2 hc

/-! ## Targets -/

/-- All slashes look the same. -/
def straight (cs : List Char) : List Char := cs.map fun c => if isSlash c then '/' else c

/-- What a URL says behind the server. -/
def beyond (rest : List Char) : List Char :=
  (rest.dropWhile isSlash).dropWhile fun c => !isSlash c && c != '?'

/-- The end of a URL as far as it is looked at. -/
def said (cs : List Char) : List Char :=
  (cs.filter fun c => !isIgnored c).takeWhile fun c => !isFragmentStart c

/-- The question that goes with a path. -/
def querySent : List Char → List Char
  | [] => []
  | _ :: cs => '?' :: Percent.encode isCodedInQuery cs

/-- The URL names a server, and it holds neither a question nor a fragment. -/
def NamesServer (url : String) : Prop :=
  '?' ∉ url.toList ∧ '#' ∉ url.toList ∧
    ∃ rest,
      afterScheme? ((Text.trimWith isEdge url.toList).filter fun c => !isIgnored c) = some rest ∧
      ∃ c ∈ rest, isSlash c = false

theorem target?_of_rest {url : String} {rest : List Char}
    (h : afterScheme? (said (Text.trimWith isEdge url.toList)) = some rest) :
    target? url = some (String.ofList (pathSent (straight ((beyond rest).takeWhile (· != '?'))) ++
      querySent ((beyond rest).dropWhile (· != '?')))) :=
  Option.bind_eq_some_iff.mpr ⟨rest, h, rfl⟩

theorem dropWhile_append {p : Char → Bool} {cs : List Char} (h : cs.dropWhile p ≠ [])
    (more : List Char) : (cs ++ more).dropWhile p = cs.dropWhile p ++ more := by
  simp [List.dropWhile_append, h]

theorem afterScheme?_append {cs rest : List Char} (h : afterScheme? cs = some rest)
    (more : List Char) : afterScheme? (cs ++ more) = some (rest ++ more) := by
  unfold afterScheme? at h ⊢
  split at h
  · cases h
  · next c after hafter =>
    have hne : cs.dropWhile (· != ':') ≠ [] := by simp [hafter]
    have hscheme : (cs ++ more).takeWhile (· != ':') = cs.takeWhile (· != ':') := by
      have hparts := congrArg List.length
        (List.takeWhile_append_dropWhile (p := (· != ':')) (l := cs))
      rw [hafter, List.length_append, List.length_cons] at hparts
      rw [List.takeWhile_append, if_neg (by omega)]
    rw [dropWhile_append hne, hafter, hscheme]
    dsimp only at h ⊢
    split at h
    · next hweb =>
      cases h
      rw [List.cons_append]
      dsimp only
      rw [if_pos hweb]
    · cases h

theorem mem_of_afterScheme? {cs rest : List Char} (h : afterScheme? cs = some rest) {c : Char}
    (hc : c ∈ rest) : c ∈ cs := by
  unfold afterScheme? at h
  split at h
  · cases h
  · next colon after hafter =>
    dsimp only at h
    split at h
    · cases h
      exact (List.dropWhile_sublist _).subset (hafter ▸ List.mem_cons_of_mem _ hc)
    · cases h

theorem straight_cons (cs : List Char) : straight ('/' :: cs) = '/' :: straight cs := rfl

theorem straight_append (cs more : List Char) :
    straight (cs ++ more) = straight cs ++ straight more := List.map_append

theorem length_utf8_straight (cs : List Char) :
    (utf8 (straight cs)).length = (utf8 cs).length := by
  induction cs with
  | nil => rfl
  | cons c cs ih =>
    have hc : (String.utf8EncodeChar (if isSlash c then '/' else c)).length =
        (String.utf8EncodeChar c).length := by
      split
      · next hslash =>
        simp only [isSlash, Bool.or_eq_true, beq_iff_eq] at hslash
        rcases hslash with rfl | rfl <;> rfl
      · rfl
    rw [straight, List.map_cons, Text.utf8_cons, Text.utf8_cons, List.length_append,
      List.length_append, hc]
    exact congrArg _ ih

/-- The segments that a path starts with. -/
def segmentsOf (path : List Char) : List (List Char) :=
  if path.isEmpty then [] else Text.splitOn '/' (path.drop 1)

theorem not_mem_segmentsOf (path : List Char) : ∀ s ∈ segmentsOf path, '/' ∉ s := by
  unfold segmentsOf
  split
  · simp
  · exact Text.not_mem_of_mem_splitOn '/' _

theorem pathSent_append {path : List Char} (h : ∀ c ∈ path.head?, c = '/') (more : List Char) :
    pathSent (path ++ '/' :: more) =
      pathOf (walk ((segmentsOf path).foldl step []) (Text.splitOn '/' more)) := by
  have hsegments : Text.splitOn '/' ((path ++ '/' :: more).drop 1) =
      segmentsOf path ++ Text.splitOn '/' more := by
    cases path with
    | nil => rfl
    | cons c path => exact Text.splitOn_append '/' more path
  have hhead : (path ++ '/' :: more).headD ' ' = '/' := by
    cases path with
    | nil => rfl
    | cons c path => exact h c rfl
  have hne := Text.splitOn_ne_nil '/' more
  simp only [pathSent, hhead, beq_self_eq_true, if_true, hsegments]
  rw [walk_append hne, cons_joinWith (by simpa using walk_ne_nil hne _)]
  rfl

theorem said_append {cs : List Char} (h : '#' ∉ cs) (more : List Char) :
    said (cs ++ more) = cs.filter (fun c => !isIgnored c) ++ said more := by
  rw [said, List.filter_append, List.takeWhile_append_of_pos]
  · rfl
  · intro c hc
    have hne : c ≠ '#' := fun heq => h (heq ▸ (List.mem_filter.mp hc).1)
    simpa [isFragmentStart] using hne

theorem said_sublist (cs : List Char) : (said cs).Sublist cs :=
  (List.takeWhile_sublist _).trans List.filter_sublist

/-- What is said holds nothing that ends it or is left out. -/
theorem of_mem_said {cs : List Char} {c : Char} (h : c ∈ said cs) :
    isFragmentStart c = false ∧ isIgnored c = false := by
  have hstart := List.mem_takeWhile_imp h
  have hmem := (List.takeWhile_sublist _).subset h
  exact ⟨by simpa using hstart, by simpa using (List.mem_filter.mp hmem).2⟩

/-- The character stays what it is in a path, or is coded. -/
def isMild (c : Char) : Bool := !(c == '?' || c == '\\' || isFragmentStart c || isIgnored c)

theorem isMild_iff {c : Char} : isMild c = true ↔
    c ≠ '?' ∧ c ≠ '\\' ∧ isFragmentStart c = false ∧ isIgnored c = false := by
  simp [isMild, and_assoc]

theorem said_of_mild {cs : List Char} (h : ∀ c ∈ cs, isMild c = true) : said cs = cs := by
  have hmild := fun c hc => isMild_iff.mp (h c hc)
  have hfilter : (cs.filter fun c => !isIgnored c) = cs :=
    List.filter_eq_self.mpr fun c hc => by simp [(hmild c hc).2.2.2]
  rw [said, hfilter, List.takeWhile_eq_self_iff]
  exact fun c hc => by simp [(hmild c hc).2.2.1]

theorem straight_of_mild {cs : List Char} (h : ∀ c ∈ cs, isMild c = true) : straight cs = cs := by
  have hkept : ∀ c ∈ cs, (if isSlash c then '/' else c) = c := by
    intro c hc
    have hback := (isMild_iff.mp (h c hc)).2.1
    split
    · next hslash =>
      simp only [isSlash, Bool.or_eq_true, beq_iff_eq] at hslash
      exact (hslash.resolve_right hback).symm
    · rfl
  rw [straight, List.map_congr_left hkept, List.map_id']

/-- A URL that goes on behind a server is cleaned as far as it says anything. -/
theorem trimWith_append {base more : List Char} (hbase : base.dropWhile isEdge ≠ [])
    (hmore : more ≠ []) (hend : ∀ c ∈ more.getLast?, isEdge c = false) :
    Text.trimWith isEdge (base ++ more) = base.dropWhile isEdge ++ more := by
  rw [Text.trimWith, dropWhile_append hbase, Text.trimEndWith_eq_self]
  rwa [List.getLast?_append_of_ne_nil _ hmore]

theorem beyond_append {rest : List Char} (h : ∃ c ∈ rest, isSlash c = false) (more : List Char) :
    beyond (rest ++ '/' :: more) = beyond rest ++ '/' :: more := by
  have hserver : rest.dropWhile isSlash ≠ [] := by
    obtain ⟨c, hc, hslash⟩ := h
    intro hnil
    have hall := List.dropWhile_eq_nil_iff.mp hnil c hc
    cases hslash.symm.trans hall
  rw [beyond, dropWhile_append hserver, List.dropWhile_append]
  split
  · next hpathless =>
    rw [beyond, List.isEmpty_iff.mp hpathless]
    rfl
  · rfl

/-- What is left out at both ends is left out at the front first. -/
theorem exists_blanks (cs : List Char) :
    ∃ blanks, cs.dropWhile isEdge = Text.trimWith isEdge cs ++ blanks := by
  refine ⟨((cs.dropWhile isEdge).reverse.takeWhile isEdge).reverse, ?_⟩
  rw [Text.trimWith, Text.trimEndWith, ← List.reverse_append, List.takeWhile_append_dropWhile,
    List.reverse_reverse]

theorem mem_of_mem_beyond {rest : List Char} {c : Char} (h : c ∈ beyond rest) : c ∈ rest :=
  (List.dropWhile_sublist _).subset ((List.dropWhile_sublist _).subset h)

theorem head?_straight_beyond {rest : List Char} (h : '?' ∉ rest) :
    ∀ c ∈ (straight (beyond rest)).head?, c = '/' := by
  intro c hc
  cases hplace : beyond rest with
  | nil =>
    rw [hplace] at hc
    cases hc
  | cons d place =>
    have hfirst :=
      List.head?_dropWhile_not (fun c => !isSlash c && c != '?') (rest.dropWhile isSlash)
    rw [show (rest.dropWhile isSlash).dropWhile (fun c => !isSlash c && c != '?') = d :: place from
      hplace] at hfirst
    have hslash : isSlash d = true := by
      have hne : d ≠ '?' := fun heq => h (heq ▸ mem_of_mem_beyond (hplace ▸ List.mem_cons_self))
      simpa [hne] using hfirst
    rw [hplace, straight, List.map_cons, if_pos hslash] at hc
    cases hc
    rfl

/-- What is kept of the path of a server's URL, before anything more is carried out. -/
theorem exists_kept {base : String} (h : NamesServer base) : ∃ kept : List (List Char),
    (∀ segment ∈ kept, IsWhole segment) ∧
      ∀ more : List Char, (∀ c ∈ ('/' :: more).getLast?, isEdge c = false) →
        target? (base ++ String.ofList ('/' :: more)) = some (String.ofList (
          pathOf (walk kept (Text.splitOn '/' (straight ((said more).takeWhile (· != '?'))))) ++
            querySent ((said more).dropWhile (· != '?')))) := by
  obtain ⟨hquery, hfragment, rest, hrest, c, hc, hslash⟩ := h
  obtain ⟨blanks, hblanks⟩ := exists_blanks base.toList
  -- what is cut off at the end of the base itself stays in the middle of the URL
  have hafter := afterScheme?_append hrest (blanks.filter fun c => !isIgnored c)
  rw [← List.filter_append, ← hblanks] at hafter
  obtain ⟨rest', hrest'⟩ : ∃ rest', rest ++ blanks.filter (fun c => !isIgnored c) = rest' :=
    ⟨_, rfl⟩
  have hserver : ∃ c ∈ rest', isSlash c = false := ⟨c, hrest' ▸ List.mem_append_left _ hc, hslash⟩
  rw [hrest'] at hafter
  have hsub : ∀ c ∈ base.toList.dropWhile isEdge, c ∈ base.toList := fun c hc =>
    (List.dropWhile_sublist isEdge).subset hc
  have hne : base.toList.dropWhile isEdge ≠ [] := fun hnil => by
    rw [hnil] at hafter
    cases hafter
  have hplain : '?' ∉ rest' := fun hmem =>
    hquery (hsub _ (List.mem_filter.mp (mem_of_afterScheme? hafter hmem)).1)
  have hplace : ∀ c ∈ beyond rest', (c != '?') = true := fun c hc => by
    simpa using fun heq : c = '?' => hplain (heq ▸ mem_of_mem_beyond hc)
  refine ⟨(segmentsOf (straight (beyond rest'))).foldl step [],
    isWhole_foldl_step (not_mem_segmentsOf _) [] (by simp), fun more hend => ?_⟩
  have htarget : afterScheme? (said (Text.trimWith isEdge
      (base ++ String.ofList ('/' :: more)).toList)) = some (rest' ++ '/' :: said more) := by
    rw [String.toList_append, String.toList_ofList, trimWith_append hne (List.cons_ne_nil _ _) hend,
      said_append fun hmem => hfragment (hsub _ hmem)]
    exact afterScheme?_append hafter _
  rw [target?_of_rest htarget, beyond_append hserver, List.takeWhile_append_of_pos hplace,
    List.dropWhile_append_of_pos hplace, straight_append,
    List.takeWhile_cons_of_pos (by decide), List.dropWhile_cons_of_pos (by decide),
    straight_cons, pathSent_append (head?_straight_beyond hplain)]

end Gatehouse.Http.Url
