import Gatehouse.Topic
import Mathlib.Data.List.DropRight
import Mathlib.Data.List.Infix

/-!
Subtopics, from the slashes of a path to the dots of an address.

A path is accepted exactly if it comes to nothing, or to segments none of which is empty or wild,
once the slashes at its ends are left out (`normalizeChars_eq_ok_iff`). The segments are kept apart
by slashes before and by dots after, and nothing else is done to them: a segment that holds dots
comes out as several tokens, some of them empty perhaps. So the dotted form tells the segments
exactly if none of them holds a dot (`dotted_form_tells_segments_iff`).
-/

namespace Gatehouse

/-! ## Cutting and joining -/

namespace Text

theorem splitOn_eq (sep : Char) (cs : List Char) : splitOn sep cs = cs.splitOn sep := by
  induction cs with
  | nil => rfl
  | cons c cs ih =>
    obtain ⟨piece, pieces, hpieces⟩ := List.exists_cons_of_ne_nil (splitOn_ne_nil sep cs)
    rw [List.splitOn_cons_eq_if_modifyHead, ← ih, hpieces, splitOn, hpieces]
    by_cases h : c = sep
    · simp [h]
    · simp [h]

theorem joinWith_eq (sep : Char) (pieces : List (List Char)) :
    joinWith sep pieces = [sep].intercalate pieces := by
  induction pieces with
  | nil => rfl
  | cons piece pieces ih =>
    cases pieces with
    | nil => simp [joinWith]
    | cons next pieces => rw [joinWith, ih, List.intercalate_cons_cons, List.append_assoc]; rfl

/-- Pieces that hold the separator are cut as well. -/
theorem splitOn_intercalate_eq_flatMap (sep : Char) {pieces : List (List Char)} (h : pieces ≠ []) :
    ([sep].intercalate pieces).splitOn sep = pieces.flatMap (List.splitOn sep) := by
  induction pieces with
  | nil => exact absurd rfl h
  | cons piece pieces ih =>
    cases pieces with
    | nil => simp
    | cons next pieces =>
      rw [List.intercalate_cons_cons, List.append_assoc, List.singleton_append,
        List.splitOn_append_cons_self, ih (by simp)]
      exact List.flatMap_cons.symm

theorem mem_intercalate_iff {c sep : Char} (h : c ≠ sep) (pieces : List (List Char)) :
    c ∈ [sep].intercalate pieces ↔ ∃ piece ∈ pieces, c ∈ piece := by
  induction pieces with
  | nil => simp
  | cons piece pieces ih =>
    cases pieces with
    | nil => simp
    | cons next pieces =>
      rw [List.intercalate_cons_cons, List.mem_append, List.mem_append, ih]
      simp [h]

theorem nil_mem_iff {pieces : List (List Char)} :
    [] ∈ pieces ↔ pieces.head? = some [] ∨ [] ∈ pieces.tail := by
  cases pieces with
  | nil => simp
  | cons piece pieces => simp [eq_comm]

theorem head?_splitOn_eq_nil_iff {sep : Char} {cs : List Char} :
    (cs.splitOn sep).head? = some [] ↔ cs = [] ∨ cs.head? = some sep := by
  cases cs with
  | nil => simp
  | cons c cs =>
    rw [List.splitOn_cons_eq_if_modifyHead]
    by_cases h : c = sep
    · simp [h]
    · obtain ⟨piece, pieces, hpieces⟩ := List.exists_cons_of_ne_nil (List.splitOn_ne_nil sep cs)
      simp [h, hpieces]

theorem nil_mem_tail_splitOn_iff {sep : Char} {cs : List Char} :
    [] ∈ (cs.splitOn sep).tail ↔ cs.getLast? = some sep ∨ [sep, sep] <:+: cs := by
  induction cs with
  | nil => simp
  | cons c cs ih =>
    rw [List.splitOn_cons_eq_if_modifyHead, List.infix_cons_iff]
    by_cases h : c = sep
    · -- a piece ends here, and the first of the others counts now
      subst h
      rw [if_pos (beq_self_eq_true c), List.tail_cons, nil_mem_iff, ih, head?_splitOn_eq_nil_iff]
      cases cs with
      | nil => simp
      | cons d cs =>
        have hpair : [c, c] <+: c :: d :: cs ↔ d = c := by simp [List.cons_prefix_cons, eq_comm]
        rw [List.getLast?_cons_cons, hpair, List.head?_cons, Option.some.injEq]
        simp only [reduceCtorEq, false_or]
        exact or_left_comm
    · have hlast : (c :: cs).getLast? = some sep ↔ cs.getLast? = some sep := by
        cases cs with
        | nil => simp [h]
        | cons d cs => rw [List.getLast?_cons_cons]
      have htail : ∀ pieces : List (List Char),
          (pieces.modifyHead (List.cons c)).tail = pieces.tail := by
        intro pieces
        cases pieces <;> rfl
      have hpair : ¬ [sep, sep] <+: c :: cs := fun hp => h (List.cons_prefix_cons.mp hp).1.symm
      rw [if_neg (by simpa using h), htail, ih, hlast]
      simp [hpair]

/-- An empty piece comes from a separator at the beginning or at the end, or from two that stand
together. -/
theorem nil_mem_splitOn_iff {sep : Char} {cs : List Char} (h : cs ≠ []) :
    [] ∈ cs.splitOn sep ↔
      cs.head? = some sep ∨ cs.getLast? = some sep ∨ [sep, sep] <:+: cs := by
  rw [nil_mem_iff, head?_splitOn_eq_nil_iff, nil_mem_tail_splitOn_iff, or_iff_right h]

end Text

namespace Topic

/-! ## Segments -/

/-- A text without the slashes at its ends. -/
def stripped (text : List Char) : List Char :=
  (text.dropWhile (· == '/')).rdropWhile (· == '/')

/-- A segment stands for itself on the broker. -/
def IsPlain (segment : List Char) : Prop := segment ≠ [] ∧ '*' ∉ segment ∧ '>' ∉ segment

theorem checkSegments_eq_ok_iff {segments : List (List Char)} :
    checkSegments segments = .ok () ↔ ∀ segment ∈ segments, IsPlain segment := by
  induction segments with
  | nil => simp [checkSegments]
  | cons segment segments ih =>
    rw [checkSegments, List.forall_mem_cons, ← ih]
    by_cases hempty : segment = []
    · simp [IsPlain, hempty]
    · by_cases hwild : isWild segment = true
      · have hnot : ¬ IsPlain segment := by
          rintro ⟨-, hstar, hmore⟩
          simp [isWild, hstar, hmore] at hwild
        simp [hempty, hwild, hnot]
      · have hplain : IsPlain segment := by
          simpa [IsPlain, hempty, isWild] using hwild
        simp [hempty, hwild, hplain]

theorem slash_not_mem_of_mem_segments {path segment : List Char} (h : segment ∈ segments path) :
    '/' ∉ segment := by
  rw [segments] at h
  split at h
  · simp at h
  · exact Text.not_mem_of_mem_splitOn '/' _ _ h

/-- Segments that can be kept apart are the segments of a path if they are what is left of it. -/
theorem segments_eq_iff {path : List Char} {parts : List (List Char)}
    (hparts : ∀ part ∈ parts, part ≠ [] ∧ '/' ∉ part) :
    segments path = parts ↔ stripped path = ['/'].intercalate parts := by
  have hinner : Text.trimWith (· == '/') path = stripped path := rfl
  simp only [segments, hinner, Text.splitOn_eq, List.isEmpty_iff]
  constructor
  · rintro rfl
    split
    · next hempty => simp [hempty]
    · exact (List.intercalate_splitOn '/').symm
  · intro hstripped
    cases parts with
    | nil => simpa using hstripped
    | cons part parts =>
      have hcut := List.splitOn_intercalate '/' (fun p hp => (hparts p hp).2) (by simp)
      have hne : stripped path ≠ [] := by
        intro hempty
        rw [← hstripped, hempty, List.splitOn_nil] at hcut
        exact (hparts part List.mem_cons_self).1 (List.cons.inj hcut).1.symm
      rw [if_neg hne, hstripped, hcut]

/-- **Which paths are accepted.** -/
theorem normalizeChars_eq_ok_iff {path subtopic : List Char} :
    normalizeChars path = .ok subtopic ↔
      ∃ parts : List (List Char), (∀ part ∈ parts, IsPlain part ∧ '/' ∉ part) ∧
        stripped path = ['/'].intercalate parts ∧ subtopic = ['.'].intercalate parts := by
  rw [normalizeChars, Text.joinWith_eq]
  constructor
  · intro h
    cases hcheck : checkSegments (segments path) with
    | error fault => simp [hcheck] at h
    | ok _ =>
      have hplain := checkSegments_eq_ok_iff.mp hcheck
      have hslash : ∀ part ∈ segments path, '/' ∉ part := fun _ => slash_not_mem_of_mem_segments
      rw [hcheck] at h
      exact ⟨segments path, fun part hp => ⟨hplain part hp, hslash part hp⟩,
        (segments_eq_iff fun part hp => ⟨(hplain part hp).1, hslash part hp⟩).mp rfl,
        (Except.ok.inj h).symm⟩
  · rintro ⟨parts, hparts, hstripped, rfl⟩
    have hsegments : segments path = parts :=
      (segments_eq_iff fun part hp => ⟨(hparts part hp).1.1, (hparts part hp).2⟩).mpr hstripped
    rw [hsegments, checkSegments_eq_ok_iff.mpr fun part hp => (hparts part hp).1]

theorem normalize_eq_ok_iff_chars {path subtopic : String} :
    normalize path = .ok subtopic ↔ normalizeChars path.toList = .ok subtopic.toList := by
  rw [normalize]
  cases normalizeChars path.toList with
  | error fault => simp [Except.map]
  | ok chars => simp [Except.map, ← String.toList_inj]

/-- Which paths are accepted, in texts. -/
theorem normalize_eq_ok_iff {path subtopic : String} :
    normalize path = .ok subtopic ↔
      ∃ segments : List String,
        (∀ segment ∈ segments, IsPlain segment.toList ∧ '/' ∉ segment.toList) ∧
        stripped path.toList = ("/".intercalate segments).toList ∧
        subtopic = ".".intercalate segments := by
  rw [normalize_eq_ok_iff_chars, normalizeChars_eq_ok_iff]
  constructor
  · rintro ⟨parts, hparts, hstripped, hsubtopic⟩
    have htexts : (parts.map String.ofList).map String.toList = parts := by simp
    refine ⟨parts.map String.ofList, ?_, ?_, ?_⟩
    · simpa using hparts
    · rw [String.toList_intercalate, htexts]
      exact hstripped
    · rw [← String.toList_inj, String.toList_intercalate, htexts]
      exact hsubtopic
  · rintro ⟨segments, hsegments, hstripped, rfl⟩
    refine ⟨segments.map String.toList, by simpa using hsegments, ?_, ?_⟩
    · rw [hstripped, String.toList_intercalate]
      rfl
    · rw [String.toList_intercalate]
      rfl

/-- A path is read by what is left of it without the slashes around it. -/
theorem normalize_congr {path path' : String}
    (h : stripped path.toList = stripped path'.toList) : normalize path = normalize path' := by
  have hsegments : segments path.toList = segments path'.toList := by
    simp only [segments]
    have hinner : Text.trimWith (· == '/') path.toList = Text.trimWith (· == '/') path'.toList := h
    rw [hinner]
  rw [normalize, normalize, normalizeChars, normalizeChars, hsegments]

/-! ## What is refused -/

/-- What stands between the slashes of a path, those at its ends left out. -/
def segmentsOf (path : String) : List (List Char) := (stripped path.toList).splitOn '/'

/-- Only slashes are left out. -/
theorem mem_stripped_iff {c : Char} (hc : c ≠ '/') (text : List Char) :
    c ∈ stripped text ↔ c ∈ text := by
  have hdrop : ∀ cs : List Char, c ∈ cs.dropWhile (· == '/') ↔ c ∈ cs := by
    intro cs
    induction cs with
    | nil => simp
    | cons d cs ih =>
      by_cases hd : d = '/'
      · simp [hd, hc, ih]
      · simp [hd]
  rw [stripped, List.rdropWhile, List.mem_reverse, hdrop, List.mem_reverse, hdrop]

theorem mem_iff_exists_segment {c : Char} (hc : c ≠ '/') {path : String} :
    c ∈ path.toList ↔ ∃ segment ∈ segmentsOf path, c ∈ segment := by
  rw [← mem_stripped_iff hc, ← Text.mem_intercalate_iff hc, segmentsOf, List.intercalate_splitOn]

theorem normalize_eq_error_iff {path : String} :
    (∃ fault, normalize path = .error fault) ↔
      ∃ segment ∈ segments path.toList, ¬ IsPlain segment := by
  have hcheck : (∃ segment ∈ segments path.toList, ¬ IsPlain segment) ↔
      checkSegments (segments path.toList) ≠ .ok () := by
    simp [checkSegments_eq_ok_iff]
  rw [hcheck, normalize, normalizeChars]
  cases checkSegments (segments path.toList) with
  | error fault => simp [Except.map]
  | ok _ => simp [Except.map]

/-- A path is refused for slashes that stand together inside, and for a wildcard anywhere. -/
theorem normalize_eq_error_iff_mem {path : String} :
    (∃ fault, normalize path = .error fault) ↔
      stripped path.toList ≠ [] ∧ [] ∈ segmentsOf path ∨ '*' ∈ path.toList ∨ '>' ∈ path.toList := by
  have hstar : '*' ∈ path.toList ↔ _ := mem_iff_exists_segment (by decide)
  have hmore : '>' ∈ path.toList ↔ _ := mem_iff_exists_segment (by decide)
  have hinner : Text.trimWith (· == '/') path.toList = stripped path.toList := rfl
  rw [normalize_eq_error_iff, hstar, hmore]
  by_cases hempty : stripped path.toList = []
  · simp [segments, segmentsOf, hinner, hempty]
  · have hsegments : segments path.toList = segmentsOf path := by
      simp [segments, segmentsOf, hinner, hempty, Text.splitOn_eq]
    rw [hsegments]
    constructor
    · rintro ⟨segment, hmem, hplain⟩
      by_cases hnil : segment = []
      · exact .inl ⟨hempty, hnil ▸ hmem⟩
      · by_cases hs : '*' ∈ segment
        · exact .inr (.inl ⟨segment, hmem, hs⟩)
        · refine .inr (.inr ⟨segment, hmem, ?_⟩)
          by_contra hm
          exact hplain ⟨hnil, hs, hm⟩
    · rintro (⟨-, hmem⟩ | ⟨segment, hmem, hs⟩ | ⟨segment, hmem, hm⟩)
      · exact ⟨[], hmem, fun hplain => hplain.1 rfl⟩
      · exact ⟨segment, hmem, fun hplain => hplain.2.1 hs⟩
      · exact ⟨segment, hmem, fun hplain => hplain.2.2 hm⟩

/-! ## Tokens -/

/-- What stands between the dots of a subtopic. -/
def tokensOf (subtopic : String) : List (List Char) := subtopic.toList.splitOn '.'

section Accepted

variable {path subtopic : String}

/-- A path that is accepted has its segments in its subtopic, dots between them. -/
theorem toList_of_normalize (h : normalize path = .ok subtopic) :
    subtopic.toList = ['.'].intercalate (segmentsOf path) ∧
      (∀ segment ∈ segmentsOf path, '*' ∉ segment ∧ '>' ∉ segment) ∧
      (subtopic ≠ "" → ∀ segment ∈ segmentsOf path, segment ≠ []) := by
  obtain ⟨parts, hparts, hstripped, hsubtopic⟩ :=
    normalizeChars_eq_ok_iff.mp (normalize_eq_ok_iff_chars.mp h)
  cases parts with
  | nil =>
    -- the path comes to nothing, and cutting nothing gives one empty piece
    have hsegments : segmentsOf path = [[]] := by simp [segmentsOf, hstripped]
    have hempty : subtopic = "" := by simpa using hsubtopic
    simp [hsegments, hempty]
  | cons part parts =>
    have hsegments : segmentsOf path = part :: parts := by
      rw [segmentsOf, hstripped]
      exact List.splitOn_intercalate '/' (fun p hp => (hparts p hp).2) (by simp)
    rw [hsegments]
    exact ⟨hsubtopic, fun p hp => (hparts p hp).1.2, fun _ p hp => (hparts p hp).1.1⟩

theorem segmentsOf_ne_nil (path : String) : segmentsOf path ≠ [] := List.splitOn_ne_nil '/' _

/-- Segments are cut at their own dots too. -/
theorem tokensOf_eq (h : normalize path = .ok subtopic) :
    tokensOf subtopic = (segmentsOf path).flatMap (List.splitOn '.') := by
  rw [tokensOf, (toList_of_normalize h).1,
    Text.splitOn_intercalate_eq_flatMap '.' (segmentsOf_ne_nil path)]

theorem tokens_not_wild (h : normalize path = .ok subtopic) :
    ∀ token ∈ tokensOf subtopic, '*' ∉ token ∧ '>' ∉ token := by
  obtain ⟨-, hwild, -⟩ := toList_of_normalize h
  have hfree : ∀ c, c ≠ '.' → (∀ segment ∈ segmentsOf path, c ∉ segment) →
      ∀ token ∈ tokensOf subtopic, c ∉ token := by
    intro c hc hsegments token htoken hmem
    have hin : c ∈ ['.'].intercalate (tokensOf subtopic) :=
      (Text.mem_intercalate_iff hc _).mpr ⟨token, htoken, hmem⟩
    rw [tokensOf, List.intercalate_splitOn, (toList_of_normalize h).1,
      Text.mem_intercalate_iff hc] at hin
    obtain ⟨segment, hsegment, hmem⟩ := hin
    exact hsegments segment hsegment hmem
  exact fun token htoken =>
    ⟨hfree '*' (by decide) (fun s hs => (hwild s hs).1) token htoken,
      hfree '>' (by decide) (fun s hs => (hwild s hs).2) token htoken⟩

theorem nil_mem_tokensOf_iff (h : normalize path = .ok subtopic) (hne : subtopic ≠ "") :
    [] ∈ tokensOf subtopic ↔ ∃ segment ∈ segmentsOf path,
      segment.head? = some '.' ∨ segment.getLast? = some '.' ∨ ['.', '.'] <:+: segment := by
  have hsegments := (toList_of_normalize h).2.2 hne
  rw [tokensOf_eq h, List.mem_flatMap]
  exact exists_congr fun segment => and_congr_right fun hs =>
    Text.nil_mem_splitOn_iff (hsegments segment hs)

theorem flatMap_splitOn_of_dotless {segments : List (List Char)}
    (h : ∀ segment ∈ segments, '.' ∉ segment) :
    segments.flatMap (List.splitOn '.') = segments := by
  induction segments with
  | nil => rfl
  | cons segment segments ih =>
    obtain ⟨hsegment, hrest⟩ := List.forall_mem_cons.mp h
    rw [List.flatMap_cons, ih hrest, ← Text.splitOn_eq, Text.splitOn_of_not_mem hsegment,
      List.singleton_append]

theorem tokensOf_eq_segmentsOf_iff (h : normalize path = .ok subtopic) :
    tokensOf subtopic = segmentsOf path ↔ ∀ segment ∈ segmentsOf path, '.' ∉ segment := by
  constructor
  · intro heq segment hsegment
    rw [← heq, tokensOf, ← Text.splitOn_eq] at hsegment
    exact Text.not_mem_of_mem_splitOn '.' _ _ hsegment
  · intro hdots
    rw [tokensOf_eq h, flatMap_splitOn_of_dotless hdots]

end Accepted

theorem tokensOf_inj {s s' : String} : tokensOf s = tokensOf s' ↔ s = s' := by
  constructor
  · intro h
    have hjoined := congrArg (List.intercalate ['.']) h
    rw [tokensOf, tokensOf, List.intercalate_splitOn, List.intercalate_splitOn] at hjoined
    exact String.toList_inj.mp hjoined
  · rintro rfl
    rfl

/-! ## Addresses -/

theorem endpoint_right_inj {channel s s' : String} :
    endpoint channel s = endpoint channel s' ↔ s = s' := by
  rw [endpoint, endpoint, ← String.toList_inj, ← String.toList_inj]
  simp

theorem subject_right_inj {channel s s' : String} :
    subject channel s = subject channel s' ↔ s = s' := by
  have hempty : ∀ t : String, t.isEmpty = true ↔ t.toList = [] := by simp
  have hlist : ∀ t : String, (subject channel t).toList =
      "channels.".toList ++ channel.toList ++ if t.toList = [] then [] else '.' :: t.toList := by
    intro t
    rw [subject]
    by_cases ht : t.toList = []
    · simp [(hempty t).mpr ht, ht]
    · simp [mt (hempty t).mp ht, ht]
  rw [← String.toList_inj, ← String.toList_inj, hlist, hlist, List.append_cancel_left_eq]
  by_cases hs : s.toList = []
  · by_cases hs' : s'.toList = []
    · simp [hs, hs']
    · simp [hs, hs', Ne.symm hs']
  · by_cases hs' : s'.toList = []
    · simp [hs, hs']
    · simp [hs, hs']

/-- **The dotted form tells the segments exactly if none holds a dot.** Of two paths that are
accepted, the first one's tokens are its segments cut at their own dots. No token is wild, and one is
empty exactly if a segment begins or ends with a dot or has two together. Both paths have one
subtopic, one endpoint and one subject exactly if their segments, cut in this way, are the same; as
long as no segment holds a dot, if their segments are. -/
theorem dotted_form_tells_segments_iff {path path' s s' : String} (h : normalize path = .ok s)
    (h' : normalize path' = .ok s') :
    tokensOf s = (segmentsOf path).flatMap (List.splitOn '.') ∧
      (tokensOf s = segmentsOf path ↔ ∀ segment ∈ segmentsOf path, '.' ∉ segment) ∧
      (∀ token ∈ tokensOf s, '*' ∉ token ∧ '>' ∉ token) ∧
      (s ≠ "" → ([] ∈ tokensOf s ↔ ∃ segment ∈ segmentsOf path,
        segment.head? = some '.' ∨ segment.getLast? = some '.' ∨ ['.', '.'] <:+: segment)) ∧
      (∀ channel, (endpoint channel s = endpoint channel s' ↔ s = s') ∧
        (subject channel s = subject channel s' ↔ s = s')) ∧
      (s = s' ↔ (segmentsOf path).flatMap (List.splitOn '.') =
        (segmentsOf path').flatMap (List.splitOn '.')) ∧
      ((∀ segment ∈ segmentsOf path ++ segmentsOf path', '.' ∉ segment) →
        (s = s' ↔ segmentsOf path = segmentsOf path')) := by
  have hsame : s = s' ↔ (segmentsOf path).flatMap (List.splitOn '.') =
      (segmentsOf path').flatMap (List.splitOn '.') := by
    rw [← tokensOf_inj, tokensOf_eq h, tokensOf_eq h']
  refine ⟨tokensOf_eq h, tokensOf_eq_segmentsOf_iff h, tokens_not_wild h,
    nil_mem_tokensOf_iff h, fun _ => ⟨endpoint_right_inj, subject_right_inj⟩, hsame, ?_⟩
  intro hdots
  obtain ⟨hdotless, hdotless'⟩ := List.forall_mem_append.mp hdots
  rw [hsame, flatMap_splitOn_of_dotless hdotless, flatMap_splitOn_of_dotless hdotless']

/-- Slashes around a path make no difference. Neither does it whether the dot of the second path is
a slash, so the two share an endpoint. -/
theorem slash_and_dot_share_endpoint :
    normalize "//a/b c/" = .ok "a.b c" ∧ normalize "a.b c" = .ok "a.b c" ∧
      tokensOf "a.b c" = segmentsOf "//a/b c/" ∧ tokensOf "a.b c" ≠ segmentsOf "a.b c" ∧
      [] ∉ tokensOf "a.b c" := by
  have hslash : normalize "//a/b c/" = .ok "a.b c" := rfl
  have hdot : normalize "a.b c" = .ok "a.b c" := rfl
  obtain ⟨-, htells, -, hempty, -, -, -⟩ := dotted_form_tells_segments_iff hslash hdot
  obtain ⟨-, htells', -, -, -, -, -⟩ := dotted_form_tells_segments_iff hdot hslash
  have hsegments : segmentsOf "//a/b c/" = [['a'], ['b', ' ', 'c']] := by decide
  have hsegments' : segmentsOf "a.b c" = [['a', '.', 'b', ' ', 'c']] := by decide
  rw [hsegments] at htells hempty ⊢
  rw [hsegments'] at htells' ⊢
  refine ⟨hslash, hdot, htells.mpr (by decide), fun heq => ?_, fun hmem => ?_⟩
  · exact absurd (htells'.mp heq) (by decide)
  · exact absurd ((hempty (by decide)).mp hmem) (by decide)

/-- The segment between the slashes is accepted, and the token between its dots is empty. -/
theorem dots_leave_empty_token :
    normalize "a..b" = .ok "a..b" ∧ segmentsOf "a..b" = [['a', '.', '.', 'b']] ∧
      tokensOf "a..b" = [['a'], [], ['b']] :=
  ⟨rfl, by decide, by decide⟩

end Topic
end Gatehouse
