import Gatehouse.Observe.Things
import Gatehouse.Proofs.Http.Url
import Gatehouse.Proofs.Json.Written

/-!
What the things service is asked about. The id of a channel stands in the URL of an inquiry as it
is, and so what arrives is the channel only if nothing in its id means anything in a URL.

The id, with what follows it, is cut into segments, which are carried out behind a path that is the
same for all channels (`exists_kept_target`). A plain id is one segment (`sentFor_of_plain`).
Conversely, if a segment is to be read as the whole id, then nothing of the id was lost on the way,
and the bytes that are left just suffice for that (`asked_of_walk`, `isPlain_of_sentFor`). But dots
take away what stands before them, so a plain id is not the only one that comes to its path
(`sentFor_detour`).
-/

namespace Gatehouse.Observe

open Http Http.Url
open Text (utf8)

/-- The service is shown no more of an inquiry than what is asked for and the body. -/
def Transport.ShowsTarget (ask : Transport) : Prop :=
  ∀ i j : Inquiry, i.target? = j.target? → i.body = j.body → ask i = ask j

namespace ThingsService

variable {t : ThingsService} {kept : List (List Char)}

/-- The path at which a channel is asked about, by what its segment is. -/
def stackOf (kept : List (List Char)) (segment : List Char) : List (List Char) :=
  "access-by-key".toList :: segment :: "channels".toList :: "identify".toList :: kept

theorem isWhole_stackOf {segment : List Char} (hkept : ∀ s ∈ kept, IsWhole s)
    (hsegment : IsWhole segment) : ∀ s ∈ stackOf kept segment, IsWhole s := by
  unfold stackOf
  simp only [List.forall_mem_cons]
  exact ⟨by unfold IsWhole; decide, hsegment, by unfold IsWhole; decide, by unfold IsWhole; decide,
    hkept⟩

theorem ofList_pathOf_stackOf (kept : List (List Char)) (segment : String) :
    String.ofList (pathOf kept) ++ "/identify/channels/" ++ segment ++ "/access-by-key" =
      String.ofList (pathOf (stackOf kept segment.toList)) := by
  apply String.toList_injective
  simp only [stackOf, pathOf_cons, String.toList_append, String.toList_ofList, List.append_assoc]
  rfl

/-- What stands in front of a channel in a URL, behind the base and a slash. -/
def front : List Char := "identify/channels/".toList

/-- What stands in a URL for a channel, behind the base and a slash. -/
def behind (channel : String) : List Char :=
  front ++ (channel.toList ++ "/access-by-key".toList)

/-- What is said of a channel in a URL. -/
def asked (channel : String) : List Char := said (channel.toList ++ "/access-by-key".toList)

/-- What is sent for a channel. -/
def sentFor (kept : List (List Char)) (channel : String) : List Char :=
  pathOf (walk ("channels".toList :: "identify".toList :: kept)
    (Text.splitOn '/' (straight ((asked channel).takeWhile (· != '?'))))) ++
  querySent ((asked channel).dropWhile (· != '?'))

theorem url_inquiry (key channel : String) :
    (t.inquiry key channel).url = t.base ++ String.ofList ('/' :: behind channel) := by
  apply String.toList_injective
  simp only [inquiry, behind, String.toList_append, String.toList_ofList, List.append_assoc]
  rfl

theorem getLast?_behind (channel : String) :
    ∀ c ∈ ('/' :: behind channel).getLast?, isEdge c = false := by
  have hlast : "/access-by-key".toList.getLast? = some 'y' := by decide
  rw [behind, ← List.cons_append, ← List.append_assoc,
    List.getLast?_append_of_ne_nil _ (by decide), hlast]
  rintro c ⟨⟩
  decide

theorem said_behind (channel : String) : said (behind channel) = front ++ asked channel := by
  have hkept : (front.filter fun c => !isIgnored c) = front := by decide
  rw [behind, said_append (by decide), hkept, asked]

theorem splitOn_front (cs : List Char) : Text.splitOn '/' (straight (front ++ cs)) =
    ["identify".toList, "channels".toList] ++ Text.splitOn '/' (straight cs) := by
  have hstraight : straight front = front := rfl
  have hsegments : front ++ straight cs =
      "identify".toList ++ '/' :: ("channels".toList ++ '/' :: straight cs) := rfl
  rw [straight_append, hstraight, hsegments, Text.splitOn_append_sep _ (by decide),
    Text.splitOn_append_sep _ (by decide)]
  rfl

/-- Whatever the channel is, it is asked about behind the same path. -/
theorem exists_kept_target (h : NamesServer t.base) : ∃ kept : List (List Char),
    (∀ segment ∈ kept, IsWhole segment) ∧
    target? (t.base ++ "/") = some (String.ofList (pathOf kept) ++ "/") ∧
    ∀ key channel,
      (t.inquiry key channel).target? = some (String.ofList (sentFor kept channel)) := by
  obtain ⟨kept, hwhole, htarget⟩ := exists_kept h
  refine ⟨kept, hwhole, ?_, fun key channel => ?_⟩
  · have hend : ∀ c ∈ ['/'].getLast?, isEdge c = false := by
      rintro c ⟨⟩
      decide
    have hwalk : walk kept (Text.splitOn '/' (straight ((said []).takeWhile (· != '?')))) =
        [] :: kept := rfl
    have hquery : querySent ((said []).dropWhile (· != '?')) = [] := rfl
    refine (htarget [] hend).trans (congrArg some (String.toList_injective ?_))
    simp only [hwalk, hquery, pathOf_cons, String.toList_append, String.toList_ofList,
      List.append_nil]
    rfl
  · have hpath : ∀ c ∈ front, (c != '?') = true := List.all_eq_true.mp (by decide)
    rw [Inquiry.target?, url_inquiry, htarget _ (getLast?_behind channel), said_behind,
      List.takeWhile_append_of_pos hpath, List.dropWhile_append_of_pos hpath, splitOn_front,
      walk_append (Text.splitOn_ne_nil '/' _)]
    rfl

/-! ## Plain ids -/

/-- The segment is the id in codes. -/
def IsSegmentOf (segment channel : String) : Prop :=
  IsWhole segment.toList ∧ Percent.decode (utf8 segment.toList) = utf8 channel.toList

/-- Nothing in the id means anything in a URL. -/
structure IsPlain (channel : String) : Prop where
  mild : ∀ c ∈ channel.toList, isMild c = true
  whole : '/' ∉ channel.toList
  dotless : dots? channel.toList = none
  codeless : Percent.decode (utf8 channel.toList) = utf8 channel.toList

/-- An id of mild characters is cut at its slashes. -/
theorem sentFor_of_mild {channel : String} (h : ∀ c ∈ channel.toList, isMild c = true)
    (kept : List (List Char)) : sentFor kept channel =
      pathOf (walk ("channels".toList :: "identify".toList :: kept)
        (Text.splitOn '/' channel.toList ++ ["access-by-key".toList])) := by
  have hfixed : ∀ c ∈ "/access-by-key".toList, isMild c = true := List.all_eq_true.mp (by decide)
  have hmild : ∀ c ∈ channel.toList ++ "/access-by-key".toList, isMild c = true := by
    intro c hc
    rcases List.mem_append.mp hc with hc | hc
    · exact h c hc
    · exact hfixed c hc
  have hpath : ∀ c ∈ channel.toList ++ "/access-by-key".toList, (c != '?') = true := fun c hc => by
    simpa using (isMild_iff.mp (hmild c hc)).1
  have htake := List.takeWhile_eq_self_iff.mpr hpath
  have hdrop := List.dropWhile_eq_nil_iff.mpr hpath
  rw [sentFor, asked, said_of_mild hmild, htake, hdrop, straight_of_mild hmild, querySent,
    List.append_nil]
  exact congrArg (fun segments => pathOf (walk _ segments))
    (Text.splitOn_append '/' "access-by-key".toList channel.toList)

/-- A plain id is asked about in a segment of its own. -/
theorem sentFor_of_plain {channel : String} (h : IsPlain channel) (kept : List (List Char)) :
    sentFor kept channel =
      pathOf (stackOf kept (Percent.encode isCodedInPath channel.toList)) := by
  rw [sentFor_of_mild h.mild, Text.splitOn_of_not_mem h.whole, List.singleton_append, walk,
    h.dotless]
  rfl

theorem isSegmentOf_encode {channel : String} (h : IsPlain channel) :
    IsSegmentOf (String.ofList (Percent.encode isCodedInPath channel.toList)) channel := by
  rw [IsSegmentOf, String.toList_ofList]
  exact ⟨isWhole_encode h.whole, (Percent.decode_encode sparesCodes_path _).trans h.codeless⟩

theorem plain_injective {channel channel' : String} (hkept : ∀ s ∈ kept, IsWhole s)
    (h : IsPlain channel) (h' : IsPlain channel')
    (hsent : sentFor kept channel = sentFor kept channel') : channel = channel' := by
  rw [sentFor_of_plain h, sentFor_of_plain h'] at hsent
  have hstack := pathOf_inj hsent
    (fun s hs => (isWhole_stackOf hkept (isWhole_encode h.whole) s hs).1)
    fun s hs => (isWhole_stackOf hkept (isWhole_encode h'.whole) s hs).1
  have hread := congrArg (fun s => Percent.decode (utf8 s))
    (List.cons.inj (List.cons.inj hstack).2).1
  simp only [Percent.decode_encode sparesCodes_path, h.codeless, h'.codeless] at hread
  exact String.toList_injective (Text.utf8_injective hread)

/-! ## Ids that are plain in effect -/

/-- A path without a question is what its segments come to. -/
theorem walk_of_sentFor {channel : String} {segment : List Char} (hkept : ∀ s ∈ kept, IsWhole s)
    (hsegment : IsWhole segment) (h : sentFor kept channel = pathOf (stackOf kept segment)) :
    (∀ c ∈ asked channel, (c != '?') = true) ∧
      walk ("channels".toList :: "identify".toList :: kept)
        (Text.splitOn '/' (straight (asked channel))) = stackOf kept segment := by
  have hstack := isWhole_stackOf hkept hsegment
  have hpath : ∀ c ∈ asked channel, (c != '?') = true := by
    rw [← List.dropWhile_eq_nil_iff]
    by_contra hquery
    obtain ⟨c, cs, hcs⟩ := List.exists_cons_of_ne_nil hquery
    refine not_mem_pathOf hstack ?_
    rw [← h, sentFor, hcs]
    exact List.mem_append_right _ List.mem_cons_self
  rw [sentFor, List.takeWhile_eq_self_iff.mpr hpath, List.dropWhile_eq_nil_iff.mpr hpath,
    querySent, List.append_nil] at h
  have hbelow : ∀ s ∈ "channels".toList :: "identify".toList :: kept, IsWhole s := fun s hs =>
    hstack s (List.mem_cons_of_mem _ (List.mem_cons_of_mem _ hs))
  have hwalked := isWhole_walk (Text.splitOn_ne_nil '/' (straight (asked channel)))
    (Text.not_mem_of_mem_splitOn '/' _) hbelow
  exact ⟨hpath, pathOf_inj h (fun s hs => (hwalked s hs).1) fun s hs => (hstack s hs).1⟩

/-- If all of the id is to be read from a segment, nothing of what is asked may be lost: it holds no
dots, and it has not been cut off. -/
theorem asked_of_walk {channel : String} {segment : List Char}
    (hread : Percent.decode (utf8 segment) = utf8 channel.toList)
    (hwalk : walk ("channels".toList :: "identify".toList :: kept)
      (Text.splitOn '/' (straight (asked channel))) = stackOf kept segment) :
    (∀ s ∈ Text.splitOn '/' (straight (asked channel)), dots? s = none) ∧
      asked channel = channel.toList ++ "/access-by-key".toList := by
  obtain ⟨hle, hlt⟩ := size_walk (Text.splitOn '/' (straight (asked channel)))
    ("channels".toList :: "identify".toList :: kept)
  have hfixed : (Percent.decode (utf8 "access-by-key".toList)).length = 13 := by decide
  have htail : (utf8 "/access-by-key".toList).length = 14 := by decide
  have hsize : size (stackOf kept segment) = 14 + ((utf8 channel.toList).length + 1) +
      size ("channels".toList :: "identify".toList :: kept) := by
    rw [stackOf, size_cons, size_cons, hfixed, hread, Nat.add_assoc (13 + 1)]
  have hbytes := size_splitOn_le (straight (asked channel))
  have hsub : (asked channel).Sublist (channel.toList ++ "/access-by-key".toList) :=
    said_sublist _
  have hmost := (Text.utf8_sublist hsub).length_le
  rw [length_utf8_straight] at hbytes
  rw [Text.utf8_append, List.length_append, htail] at hmost
  rw [hwalk, hsize] at hle hlt
  refine ⟨?_, Text.eq_of_utf8_length_le hsub ?_⟩
  · by_contra hdots
    have := hlt (by simpa using hdots)
    omega
  · rw [Text.utf8_append, List.length_append, htail]
    omega

/-- If all of an id is said, and it is one segment, then it is mild. -/
theorem isMild_of_asked {channel : String} (hpath : ∀ c ∈ asked channel, (c != '?') = true)
    (hasked : asked channel = channel.toList ++ "/access-by-key".toList)
    (hslash : '/' ∉ straight channel.toList) : ∀ c ∈ channel.toList, isMild c = true := by
  intro c hc
  have hin : c ∈ asked channel := hasked ▸ List.mem_append_left _ hc
  obtain ⟨hstart, hignored⟩ := of_mem_said hin
  have hback : isSlash c = false := by
    by_contra hyes
    refine hslash (List.mem_map.mpr ⟨c, hc, ?_⟩)
    rw [if_pos (by simpa using hyes)]
  simp only [isSlash, Bool.or_eq_false_iff, beq_eq_false_iff_ne] at hback
  exact isMild_iff.mpr ⟨by simpa using hpath c hin, hback.2, hstart, hignored⟩

/-- A channel that is asked about in a segment of its own has a plain id. -/
theorem isPlain_of_sentFor {channel segment : String} (hkept : ∀ s ∈ kept, IsWhole s)
    (hsegment : IsSegmentOf segment channel)
    (h : sentFor kept channel = pathOf (stackOf kept segment.toList)) : IsPlain channel := by
  obtain ⟨hwhole, hread⟩ := hsegment
  obtain ⟨hpath, hwalk⟩ := walk_of_sentFor hkept hwhole h
  obtain ⟨hdotless, hasked⟩ := asked_of_walk hread hwalk
  have hsplit : Text.splitOn '/' (straight (asked channel)) =
      Text.splitOn '/' (straight channel.toList) ++ ["access-by-key".toList] := by
    rw [hasked, straight_append]
    exact Text.splitOn_append '/' _ _
  -- all segments are kept, so the id is one of them
  have hone : (Text.splitOn '/' (straight channel.toList)).map (Percent.encode isCodedInPath) =
      [segment.toList] := by
    rw [walk_of_dotless hdotless, hsplit, List.map_append, List.reverse_append] at hwalk
    have hcodes : ["access-by-key".toList] ++ ((Text.splitOn '/' (straight channel.toList)).map
        (Percent.encode isCodedInPath)).reverse = ["access-by-key".toList] ++ [segment.toList] :=
      List.append_cancel_right hwalk
    exact List.reverse_inj.mp (List.append_cancel_left hcodes)
  obtain ⟨piece, hpiece, hcode⟩ := List.map_eq_singleton_iff.mp hone
  obtain rfl : piece = straight channel.toList := by
    have hjoin := Text.joinWith_splitOn '/' (straight channel.toList)
    rwa [hpiece] at hjoin
  have hslash : '/' ∉ straight channel.toList :=
    Text.not_mem_of_mem_splitOn '/' _ _ (hpiece ▸ List.mem_singleton_self _)
  have hmild := isMild_of_asked hpath hasked hslash
  rw [straight_of_mild hmild] at hpiece hcode hslash
  refine ⟨hmild, hslash, hdotless _ ?_, ?_⟩
  · rw [hsplit, straight_of_mild hmild, hpiece]
    simp
  · have hagain := Percent.decode_encode sparesCodes_path channel.toList
    rw [hcode, hread] at hagain
    exact hagain.symm

/-! ## Other ids for a channel -/

/-- Another id that comes to the same channel. -/
def detour (channel : String) : String := channel ++ "/../" ++ channel

theorem length_detour (channel : String) : (detour channel).toList.length =
    channel.toList.length + 4 + channel.toList.length := by
  simp only [detour, String.toList_append, List.length_append]
  rfl

theorem detour_ne (channel : String) : detour channel ≠ channel := fun heq => by
  have hlength := length_detour channel
  rw [heq] at hlength
  omega

theorem detour_ne_empty (channel : String) : detour channel ≠ "" := fun heq => by
  have hlength := length_detour channel
  rw [heq, show "".toList.length = 0 from rfl] at hlength
  omega

theorem sentFor_detour {channel : String} (h : IsPlain channel) (kept : List (List Char)) :
    sentFor kept (detour channel) = sentFor kept channel := by
  have hlist : (detour channel).toList =
      channel.toList ++ '/' :: ("..".toList ++ '/' :: channel.toList) := by
    simp only [detour, String.toList_append, List.append_assoc]
    rfl
  have hdots : ∀ c ∈ "/../".toList, isMild c = true := List.all_eq_true.mp (by decide)
  have hmild : ∀ c ∈ (detour channel).toList, isMild c = true := by
    intro c hc
    simp only [detour, String.toList_append, List.mem_append] at hc
    rcases hc with (hc | hc) | hc
    · exact h.mild c hc
    · exact hdots c hc
    · exact h.mild c hc
  have hcut : Text.splitOn '/' (detour channel).toList =
      [channel.toList, "..".toList, channel.toList] := by
    rw [hlist, Text.splitOn_append_sep _ h.whole, Text.splitOn_append_sep _ (by decide),
      Text.splitOn_of_not_mem h.whole]
  have hback : ∀ (segment : List Char) (stack more : List (List Char)), more ≠ [] →
      walk (segment :: stack) ("..".toList :: more) = walk stack more := by
    intro segment stack more hmore
    exact walk_append hmore ["..".toList] (segment :: stack)
  rw [sentFor_of_mild hmild, sentFor_of_mild h.mild, hcut, Text.splitOn_of_not_mem h.whole]
  simp only [List.cons_append, List.nil_append]
  rw [walk, h.dotless]
  exact congrArg pathOf (hback _ _ _ (List.cons_ne_nil _ _))

theorem check_of_reply {ask : Transport} {key channel : String} {reply : Reply} (hkey : key ≠ "")
    (hchannel : channel ≠ "") (h : ask (t.inquiry key channel) = .ok reply) :
    t.check ask key channel = verdict reply := by
  have hempty : (key.isEmpty || channel.isEmpty) = false := by simp [hkey, hchannel]
  rw [check, hempty, h]
  rfl

theorem check_congr {ask : Transport} (hask : ask.ShowsTarget) (key : String)
    {channel channel' : String} (hne : channel ≠ "") (hne' : channel' ≠ "")
    (h : (t.inquiry key channel).target? = (t.inquiry key channel').target?) :
    t.check ask key channel = t.check ask key channel' := by
  have hempty : channel.isEmpty = false := by simpa [String.isEmpty_iff] using hne
  have hempty' : channel'.isEmpty = false := by simpa [String.isEmpty_iff] using hne'
  have hreply : ask (t.inquiry key channel) = ask (t.inquiry key channel') := hask _ _ h rfl
  simp only [check, hempty, hempty', hreply]

/-- **A channel is what the service is asked about exactly if its id is plain.** For the id of a
channel the path of an inquiry is that of the service, with the id in codes as a segment of it, if
and only if the id is plain. Different plain ids are asked about at different paths. But for every
plain id there is another one that is not: whatever the service answers for the one lets callers
into the other. -/
theorem channel_in_path_iff_plain {url : String} (h : NamesServer (ofUrl url).base) :
    ∃ path, target? ((ofUrl url).base ++ "/") = some (path ++ "/") ∧
      (∀ key channel, (∃ segment, IsSegmentOf segment channel ∧
          ((ofUrl url).inquiry key channel).target? =
            some (path ++ "/identify/channels/" ++ segment ++ "/access-by-key")) ↔
        IsPlain channel) ∧
      (∀ key key' channel channel', IsPlain channel → IsPlain channel' →
        ((ofUrl url).inquiry key channel).target? = ((ofUrl url).inquiry key' channel').target? →
          channel = channel') ∧
      ∀ channel, IsPlain channel → channel ≠ "" → ∃ other ≠ channel,
        ∀ ask : Transport, ask.ShowsTarget → ∀ key,
          authorize ((ofUrl url).check ask) key other =
            authorize ((ofUrl url).check ask) key channel := by
  obtain ⟨kept, hwhole, hbase, htarget⟩ := exists_kept_target h
  refine ⟨String.ofList (pathOf kept), hbase, fun key channel => ⟨?_, fun hplain => ?_⟩, ?_, ?_⟩
  · rintro ⟨segment, hsegment, hsent⟩
    rw [htarget, ofList_pathOf_stackOf, Option.some.injEq] at hsent
    exact isPlain_of_sentFor hwhole hsegment (String.ofList_injective hsent)
  · refine ⟨_, isSegmentOf_encode hplain, ?_⟩
    rw [htarget, ofList_pathOf_stackOf, sentFor_of_plain hplain, String.toList_ofList]
  · intro key key' channel channel' hplain hplain' heq
    rw [htarget, htarget, Option.some.injEq] at heq
    exact plain_injective hwhole hplain hplain' (String.ofList_injective heq)
  · intro channel hplain hne
    refine ⟨detour channel, detour_ne channel, fun ask hask key => ?_⟩
    have hcheck := check_congr (t := ofUrl url) hask key (detour_ne_empty channel) hne
      (by rw [htarget, htarget, sentFor_detour hplain])
    rw [authorize, authorize, hcheck]

/-- An id with a blank and a percent sign is plain, one with a question mark is not. -/
theorem spaced_id_is_plain :
    let t := ofUrl "http://h:80/a/./b//"
    NamesServer t.base ∧ IsPlain "ch 1%" ∧
      (t.inquiry "key" "ch 1%").target? = some "/a/b/identify/channels/ch%201%/access-by-key" ∧
      (∃ other ≠ "ch 1%", ∀ ask : Transport, ask.ShowsTarget →
        authorize (t.check ask) "key" other = authorize (t.check ask) "key" "ch 1%") ∧
      ∃ path, target? (t.base ++ "/") = some (path ++ "/") ∧
        ∀ segment, IsSegmentOf segment "ch?" → (t.inquiry "key" "ch?").target? ≠
          some (path ++ "/identify/channels/" ++ segment ++ "/access-by-key") := by
  intro t
  have hserver : NamesServer t.base :=
    ⟨by decide, by decide, "//h:80/a/./b".toList, by decide, 'h', by decide, by decide⟩
  have hplain : IsPlain "ch 1%" :=
    ⟨List.all_eq_true.mp (by decide), by decide, by decide, by decide⟩
  obtain ⟨path, hpath, hiff, -, hother⟩ := channel_in_path_iff_plain hserver
  obtain ⟨other, hne, hsame⟩ := hother "ch 1%" hplain (by decide)
  refine ⟨hserver, hplain, by decide, ⟨other, hne, fun ask hask => hsame ask hask "key"⟩,
    path, hpath, fun segment hsegment htarget => ?_⟩
  have hmild := ((hiff "key" "ch?").mp ⟨segment, hsegment, htarget⟩).mild '?' (by decide)
  exact absurd hmild (by decide)

/-- A key that is granted on one channel lets its holder into a channel of another id. -/
theorem dots_reach_other_channel :
    let t := ofUrl "http://things:8182/"
    let ask : Transport := fun i =>
      .ok (if i.target? = some "/identify/channels/ch1/access-by-key"
        then ⟨200, utf8 "\x7b\"id\":\"thing-1\"\x7d".toList⟩ else ⟨404, []⟩)
    (t.inquiry "key" "x/../ch1").target? = (t.inquiry "key" "ch1").target? ∧
      authorize (t.check ask) "key" "ch2" = .error (.unauthorized .accessDenied) ∧
      authorize (t.check ask) "key" "x/../ch1" = .ok "thing-1" := by
  intro t ask
  have hother : (t.inquiry "key" "ch2").target? ≠
      some "/identify/channels/ch1/access-by-key" := by decide
  have hreached : (t.inquiry "key" "x/../ch1").target? =
      some "/identify/channels/ch1/access-by-key" := by decide
  have hmeant : (t.inquiry "key" "ch1").target? =
      some "/identify/channels/ch1/access-by-key" := by decide
  have hrefused : t.check ask "key" "ch2" = verdict ⟨404, []⟩ :=
    check_of_reply (by decide) (by decide) (congrArg Except.ok (if_neg hother))
  have hgranted : t.check ask "key" "x/../ch1" =
      verdict ⟨200, utf8 "\x7b\"id\":\"thing-1\"\x7d".toList⟩ :=
    check_of_reply (by decide) (by decide) (congrArg Except.ok (if_pos hreached))
  have htext : "\x7b\"id\":\"thing-1\"\x7d".toList =
      (Json.object [("id", .text "thing-1")]).write := rfl
  have hthing : verdict ⟨200, utf8 "\x7b\"id\":\"thing-1\"\x7d".toList⟩ = .ok "thing-1" := by
    rw [verdict, if_pos (by decide), htext, Json.ofBytes_write]
    rfl
  refine ⟨hreached.trans hmeant.symm, ?_, ?_⟩
  · rw [authorize, hrefused]
    rfl
  · rw [authorize, hgranted, hthing]

end ThingsService
end Gatehouse.Observe
