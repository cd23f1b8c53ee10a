import Gatehouse.Proofs.Observe.Address
import Gatehouse.Proofs.Observe.Subtopic

/-!
Paths of requests. A path that is accepted can be taken apart in one way only: into a leading slash
or none, a channel, and segments with slashes between and around them (`ChannelPath`). The path is
read as that channel and those segments, and a path that cannot be taken apart so is refused
(`parsePath_grammar`).
-/

namespace Gatehouse.Observe

/-! ## Paths put together -/

/-- A name that a channel in a path can have: word characters and hyphens. -/
def IsChannelName (channel : String) : Prop :=
  channel ≠ "" ∧ ∀ c ∈ channel.toList, c = '-' ∨ Text.isWord c = true

/-- What can follow the word `messages`: nothing, or a slash and no question mark after it. -/
def IsRest (rest : String) : Prop :=
  rest = "" ∨ rest.toList.head? = some '/' ∧ '?' ∉ rest.toList

def pathOf (rooted : Bool) (channel rest : String) : String :=
  (if rooted then "/" else "") ++ "channels/" ++ channel ++ "/messages" ++ rest

/-- A path that names a channel, taken apart. -/
@[ext]
structure ChannelPath where
  /-- There is a slash in front. -/
  rooted : Bool
  channel : String
  /-- What follows the word `messages`. -/
  rest : String
  segments : List String
  isChannelName : IsChannelName channel
  isRest : IsRest rest
  /-- Slashes stand between the segments, and around them. -/
  stripped_rest : Topic.stripped rest.toList = ("/".intercalate segments).toList
  isPlain : ∀ segment ∈ segments, Topic.IsPlain segment.toList ∧ '/' ∉ segment.toList

def ChannelPath.text (p : ChannelPath) : String := pathOf p.rooted p.channel p.rest

def ChannelPath.subtopic (p : ChannelPath) : String := ".".intercalate p.segments

/-! ## The parts before the segments -/

theorem isChannelChar_iff {c : Char} :
    isChannelChar c = true ↔ c = '-' ∨ Text.isWord c = true := by
  simp [isChannelChar]

theorem not_isChannelChar_slash : isChannelChar '/' = false := by
  simp [isChannelChar, Text.not_isWord_slash]

theorem isTail_iff {rest : String} : isTail rest.toList = true ↔ IsRest rest := by
  rw [IsRest, ← String.toList_eq_nil_iff]
  cases rest.toList with
  | nil => simp [isTail]
  | cons c cs => simp [isTail]

theorem not_isRest_iff {rest : String} :
    ¬ IsRest rest ↔ (rest ≠ "" ∧ rest.toList.head? ≠ some '/') ∨ '?' ∈ rest.toList := by
  by_cases hempty : rest = ""
  · simp [IsRest, hempty]
  · rw [IsRest, or_iff_right hempty, not_and_or, not_not, and_iff_right hempty]

/-- The channel ends where the next slash is. -/
theorem takeWhile_isChannelChar {channel : List Char}
    (hchannel : ∀ c ∈ channel, isChannelChar c = true) (tail : List Char) :
    (channel ++ '/' :: tail).takeWhile isChannelChar = channel ∧
      (channel ++ '/' :: tail).dropWhile isChannelChar = '/' :: tail := by
  rw [List.takeWhile_append_of_pos hchannel, List.dropWhile_append_of_pos hchannel]
  simp [not_isChannelChar_slash]

theorem parsePathChars_append {lead channel : List Char} (hlead : lead = [] ∨ lead = ['/'])
    (hne : channel ≠ []) (hchannel : ∀ c ∈ channel, isChannelChar c = true) (rest : List Char) :
    parsePathChars (lead ++ ("channels/".toList ++ (channel ++ ("/messages".toList ++ rest)))) =
      if isTail rest then (Topic.normalizeChars rest).toOption.map (channel, ·) else none := by
  have hrooted : (Text.after? ['/'] (lead ++ ("channels/".toList ++
      (channel ++ ("/messages".toList ++ rest))))).getD (lead ++ ("channels/".toList ++
      (channel ++ ("/messages".toList ++ rest)))) =
      "channels/".toList ++ (channel ++ ("/messages".toList ++ rest)) := by
    rcases hlead with rfl | rfl
    · rfl
    · rfl
  obtain ⟨htake, hdrop⟩ := takeWhile_isChannelChar hchannel ("messages".toList ++ rest)
  have hmessages : "/messages".toList ++ rest = '/' :: ("messages".toList ++ rest) := rfl
  rw [parsePathChars, hrooted, Text.after?_eq_some_iff.mpr rfl]
  simp only [Option.bind_eq_bind, Option.bind_some]
  rw [hmessages, htake, hdrop, ← hmessages, Text.after?_eq_some_iff.mpr rfl]
  simp only [Option.bind_some, List.isEmpty_eq_false_iff.mpr hne, Bool.false_or]
  by_cases htail : isTail rest = true
  · cases Topic.normalizeChars rest with
    | error fault => simp [htail, Except.toOption]
    | ok subtopic => simp [htail, Except.toOption]
  · simp [htail]

/-- What is read begins like a path put together. -/
theorem exists_parts_of_parsePathChars {path channel subtopic : List Char}
    (h : parsePathChars path = some (channel, subtopic)) :
    ∃ lead rest : List Char, (lead = [] ∨ lead = ['/']) ∧ channel ≠ [] ∧
      path = lead ++ ("channels/".toList ++ (channel ++ ("/messages".toList ++ rest))) := by
  have hlead : ∃ lead : List Char, (lead = [] ∨ lead = ['/']) ∧
      path = lead ++ (Text.after? ['/'] path).getD path := by
    cases hafter : Text.after? ['/'] path with
    | none => exact ⟨[], .inl rfl, rfl⟩
    | some inner => exact ⟨['/'], .inr rfl, Text.after?_eq_some_iff.mp hafter⟩
  obtain ⟨lead, hlead, hpath⟩ := hlead
  simp only [parsePathChars, Option.bind_eq_bind, Option.bind_eq_some_iff] at h
  obtain ⟨inner, hchannels, rest, hmessages, h⟩ := h
  rw [Text.after?_eq_some_iff] at hchannels hmessages
  split at h
  · cases h
  · next hform =>
    have hchannel : inner.takeWhile isChannelChar = channel := by
      split at h
      · exact (Prod.mk.inj (Option.some.inj h)).1
      · cases h
    refine ⟨lead, rest, hlead, ?_, ?_⟩
    · rintro rfl
      simp [hchannel] at hform
    · rw [← hmessages, ← hchannel, List.takeWhile_append_dropWhile, ← hchannels]
      exact hpath

theorem toList_pathOf (rooted : Bool) (channel rest : String) :
    (pathOf rooted channel rest).toList = (if rooted then ['/'] else []) ++
      ("channels/".toList ++ (channel.toList ++ ("/messages".toList ++ rest.toList))) := by
  cases rooted <;> simp [pathOf]

theorem parsePath_pathOf {channel : String} (hname : IsChannelName channel) (rooted : Bool)
    (rest : String) :
    parsePath (pathOf rooted channel rest) =
      if isTail rest.toList then (Topic.normalize rest).toOption.map (channel, ·) else none := by
  have hlead : (if rooted then ['/'] else []) = [] ∨ (if rooted then ['/'] else []) = ['/'] := by
    cases rooted <;> simp
  rw [parsePath, toList_pathOf, parsePathChars_append hlead
    (String.toList_eq_nil_iff.not.mpr hname.1) fun c hc => isChannelChar_iff.mpr (hname.2 c hc)]
  rw [Topic.normalize]
  cases Topic.normalizeChars rest.toList with
  | error fault => split <;> rfl
  | ok subtopic => split <;> simp [Except.map, Except.toOption]

theorem exists_pathOf_of_parsePath {path channel subtopic : String}
    (h : parsePath path = some (channel, subtopic)) :
    IsChannelName channel ∧ ∃ rooted rest, path = pathOf rooted channel rest := by
  obtain ⟨⟨c, s⟩, hchars, hparts⟩ := Option.map_eq_some_iff.mp h
  obtain ⟨rfl, -⟩ := Prod.mk.inj hparts
  obtain ⟨lead, rest, hlead, hne, hpath⟩ := exists_parts_of_parsePathChars hchars
  refine ⟨⟨by simpa using hne, fun d hd => ?_⟩, decide (lead = ['/']), String.ofList rest, ?_⟩
  · rw [String.toList_ofList] at hd
    exact isChannelChar_iff.mp (isChannelChar_of_parsePathChars hchars d hd)
  · rw [← String.toList_inj, toList_pathOf, String.toList_ofList, String.toList_ofList, hpath]
    rcases hlead with rfl | rfl
    · simp
    · simp

/-! ## Taking paths apart -/

theorem pathOf_inj {rooted rooted' : Bool} {channel channel' rest rest' : String}
    (hname : IsChannelName channel) (hname' : IsChannelName channel')
    (h : pathOf rooted channel rest = pathOf rooted' channel' rest') :
    rooted = rooted' ∧ channel = channel' ∧ rest = rest' := by
  rw [← String.toList_inj, toList_pathOf, toList_pathOf] at h
  have hrooted : rooted = rooted' := by
    cases rooted <;> cases rooted' <;> simp at h ⊢
  subst hrooted
  have hafter := List.append_cancel_left (List.append_cancel_left h)
  have hends : ∀ {c : String} (_ : IsChannelName c) (t : List Char),
      (c.toList ++ ("/messages".toList ++ t)).takeWhile isChannelChar = c.toList :=
    fun hc _ => (takeWhile_isChannelChar (fun d hd => isChannelChar_iff.mpr (hc.2 d hd)) _).1
  have hchannel : channel.toList = channel'.toList := by
    rw [← hends hname rest.toList, hafter, hends hname' rest'.toList]
  rw [hchannel] at hafter
  have hrest := List.append_cancel_left (List.append_cancel_left hafter)
  exact ⟨rfl, String.toList_inj.mp hchannel, String.toList_inj.mp hrest⟩

namespace ChannelPath

/-- There is one way to take a path apart. -/
theorem text_injective : Function.Injective text := by
  intro p p' h
  obtain ⟨hrooted, hchannel, hrest⟩ := pathOf_inj p.isChannelName p'.isChannelName h
  have hparts : ∀ q : ChannelPath,
      Topic.segments q.rest.toList = q.segments.map String.toList := by
    intro q
    refine (Topic.segments_eq_iff fun part hp => ?_).mpr ?_
    · obtain ⟨segment, hsegment, rfl⟩ := List.mem_map.mp hp
      exact ⟨(q.isPlain segment hsegment).1.1, (q.isPlain segment hsegment).2⟩
    · rw [q.stripped_rest, String.toList_intercalate]
      rfl
  have hsegments : p.segments.map String.toList = p'.segments.map String.toList := by
    rw [← hparts p, ← hparts p', hrest]
  exact ChannelPath.ext hrooted hchannel hrest
    (List.map_injective_iff.mpr (fun _ _ => String.toList_inj.mp) hsegments)

theorem parsePath_text (p : ChannelPath) : parsePath p.text = some (p.channel, p.subtopic) := by
  have hsubtopic := Topic.normalize_eq_ok_iff.mpr ⟨p.segments, p.isPlain, p.stripped_rest, rfl⟩
  rw [text, parsePath_pathOf p.isChannelName, if_pos (isTail_iff.mpr p.isRest), hsubtopic]
  rfl

theorem exists_of_parsePath {path channel subtopic : String}
    (h : parsePath path = some (channel, subtopic)) :
    ∃ p : ChannelPath, p.text = path ∧ p.channel = channel ∧ p.subtopic = subtopic := by
  obtain ⟨hname, rooted, rest, rfl⟩ := exists_pathOf_of_parsePath h
  rw [parsePath_pathOf hname] at h
  split at h
  · next htail =>
    cases hn : Topic.normalize rest with
    | error fault => simp [hn, Except.toOption] at h
    | ok s =>
      obtain ⟨segments, hsegments, hstripped, hs⟩ := Topic.normalize_eq_ok_iff.mp hn
      have hsubtopic : s = subtopic := by simpa [hn, Except.toOption] using h
      exact ⟨⟨rooted, channel, rest, segments, hname, isTail_iff.mp htail, hstripped, hsegments⟩,
        rfl, rfl, hs.symm.trans hsubtopic⟩
  · cases h

end ChannelPath

/-- **Paths are read exactly by their grammar.** A path is read as a channel and a subtopic exactly
if it can be taken apart so that these come out, and there is one way to do that. Whether a slash
stands in front, and how many stand around the segments, makes no difference. Behind a channel, a
path is refused exactly for a text that is not set off by a slash, for a question mark, for slashes
that stand together inside, and for a wildcard anywhere. -/
theorem parsePath_grammar :
    (∀ path channel subtopic, parsePath path = some (channel, subtopic) ↔
        ∃ p : ChannelPath, p.text = path ∧ p.channel = channel ∧ p.subtopic = subtopic) ∧
      (∀ p p' : ChannelPath, p.text = p'.text → p = p') ∧
      (∀ rooted rooted' channel rest rest', IsChannelName channel → IsRest rest → IsRest rest' →
        Topic.stripped rest.toList = Topic.stripped rest'.toList →
        parsePath (pathOf rooted channel rest) = parsePath (pathOf rooted' channel rest')) ∧
      (∀ rooted channel rest, IsChannelName channel →
        (parsePath (pathOf rooted channel rest) = none ↔
          (rest ≠ "" ∧ rest.toList.head? ≠ some '/') ∨ '?' ∈ rest.toList ∨
          (Topic.stripped rest.toList ≠ [] ∧ [] ∈ Topic.segmentsOf rest) ∨
          '*' ∈ rest.toList ∨ '>' ∈ rest.toList)) := by
  refine ⟨fun path channel subtopic => ⟨ChannelPath.exists_of_parsePath, ?_⟩,
    fun _ _ h => ChannelPath.text_injective h, ?_, ?_⟩
  · rintro ⟨p, rfl, rfl, rfl⟩
    exact p.parsePath_text
  · intro rooted rooted' channel rest rest' hname hrest hrest' hstripped
    rw [parsePath_pathOf hname, parsePath_pathOf hname, if_pos (isTail_iff.mpr hrest),
      if_pos (isTail_iff.mpr hrest'), Topic.normalize_congr hstripped]
  · intro rooted channel rest hname
    rw [parsePath_pathOf hname, ← Topic.normalize_eq_error_iff_mem, ← or_assoc,
      ← not_isRest_iff, ← isTail_iff]
    by_cases htail : isTail rest.toList = true
    · cases Topic.normalize rest with
      | error fault => simp [htail, Except.toOption]
      | ok subtopic => simp [htail, Except.toOption]
    · simp [htail]

/-- The second slash stands around the segments, and in the other path it stands inside them. -/
example : parsePath "channels/ch-1/messages//a/b/" = some ("ch-1", "a.b") ∧
    parsePath "/channels/ch-1/messages/a//b" = none := by decide +kernel

end Gatehouse.Observe
