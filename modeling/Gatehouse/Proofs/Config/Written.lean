import Gatehouse.Config.Settings
import Gatehouse.Proofs.Json.Record
import Gatehouse.Proofs.Time.SpanText

/-!
Settings in their written form. A span can be read to the millisecond, but it is written in whole
seconds. So written settings are read back with their spans cut to the second (`Settings.cut`), and
otherwise as they were. That is the same settings if every span is whole. If not, it may be settings
that another verdict is passed on: a span of less than a second comes to nothing, and a span that is
hardly too long becomes one that can be added.
-/

namespace Gatehouse

open Json.Read
open Json (Document)

/-! ## Spans -/

namespace Span

/-- The span without its part of a second. -/
def cut (d : Span) : Span := ofSeconds d.seconds

/-- The span lasts, but no second. -/
def IsShort (d : Span) : Prop := d.seconds = 0 ∧ d.nanos ≠ 0

/-- The span is too long to be added to instants, but would not be without its part of a second. -/
def IsHardlyOver (d : Span) : Prop := d.seconds = longest.seconds ∧ longest.nanos < d.nanos

instance (d : Span) : Decidable d.IsShort := inferInstanceAs (Decidable (_ ∧ _))

instance (d : Span) : Decidable d.IsHardlyOver := inferInstanceAs (Decidable (_ ∧ _))

theorem cut_eq_self_iff {d : Span} : d.cut = d ↔ d.nanos = 0 := by
  cases d
  simp [cut, ofSeconds, eq_comm]

theorem isZero_iff {d : Span} : d.isZero = true ↔ d.seconds = 0 ∧ d.nanos = 0 := by
  simp [isZero]

theorem isZero_cut_iff {d : Span} : d.cut.isZero = true ↔ d.isZero = true ∨ d.IsShort := by
  simp only [isZero_iff, cut, ofSeconds, IsShort, and_true]
  omega

theorem isZero_of_isShort {d : Span} (h : d.IsShort) : d.isZero = false ∧ d.cut.isZero = true :=
  ⟨by simp [isZero, h.2], isZero_cut_iff.mpr (.inr h)⟩

theorem isZero_cut {d : Span} (h : ¬ d.IsShort) : d.cut.isZero = d.isZero :=
  Bool.eq_iff_iff.mpr (isZero_cut_iff.trans (or_iff_left h))

theorem isAddable_cut_iff {d : Span} : d.cut.IsAddable ↔ d.IsAddable ∨ d.IsHardlyOver := by
  simp only [IsAddable, cut, ofSeconds, IsHardlyOver]
  omega

theorem isAddable_of_isHardlyOver {d : Span} (h : d.IsHardlyOver) :
    ¬ d.IsAddable ∧ d.cut.IsAddable := by
  refine ⟨fun haddable => ?_, isAddable_cut_iff.mpr (.inr h)⟩
  simp only [IsHardlyOver] at h
  simp only [IsAddable] at haddable
  omega

theorem checkSpan_of_isAddable {d : Span} (h : d.IsAddable) (name : String) :
    checkSpan name d = .ok () := if_pos h

theorem checkSpan_of_not_isAddable {d : Span} (h : ¬ d.IsAddable) (name : String) :
    checkSpan name d = .error (.config (name ++
      " out of range: Source duration value is out of range for the target type")) := if_neg h

theorem checkSpan_cut {d : Span} (h : ¬ d.IsHardlyOver) (name : String) :
    checkSpan name d.cut = checkSpan name d := by
  unfold checkSpan
  exact if_congr (isAddable_cut_iff.trans (or_iff_left h)) rfl rfl

/-- A written span is read back without its part of a second. -/
theorem read_render {d : Span} (h : d.seconds ≤ Text.max64) : read d.render = .ok d.cut := by
  have htext : d.render.toList = Text.natDigits d.seconds ++ ['s'] := String.toList_ofList
  have hcounts : TimeUnit.seconds.Counts d.render.toList d.seconds :=
    ⟨_, htext, Text.isNumeral_natDigits d.seconds⟩
  have htrim : Text.trim d.render.toList = d.render.toList := by
    obtain ⟨c, cs, hcons⟩ := List.exists_cons_of_ne_nil (Text.natDigits_ne_nil d.seconds)
    have hfirst : c ∈ Text.natDigits d.seconds := hcons ▸ List.mem_cons_self
    have hdigit := Text.isDigit_of_mem_natDigits c hfirst
    rw [htext, hcons]
    refine Text.trim_eq_self ?_ ?_
    · rintro c ⟨⟩
      exact Text.isBlank_of_isDigit hdigit
    · rw [List.getLast?_concat]
      rintro c ⟨⟩
      decide
  have hfits := (TimeUnit.seconds.seconds_spanOf_le_iff d.seconds).mp h
  rw [read, htrim, readExact_of_fits hcounts h, if_pos hfits]
  rfl

theorem seconds_le_of_read {s : String} {d : Span} (h : read s = .ok d) :
    d.seconds ≤ Text.max64 := by
  obtain ⟨unit, count, -, hread⟩ := readExact_cases (Text.trim s.toList)
  rw [read, hread, readCount] at h
  split at h
  · cases h
  · split at h
    · next hfits =>
      cases h
      exact hfits
    · cases h

theorem readNode_eq_ok_iff {node : Json.Node} {d : Span} :
    readNode node = .ok d ↔ ∃ s, node = .text s ∧ read s = .ok d := by
  rw [readNode, text_bind_eq_ok_iff]
  refine exists_congr fun s => and_congr_right fun _ => ?_
  cases read s with
  | ok d => simp
  | error fault => cases fault <;> simp

theorem readNode_toJson {d : Span} (h : d.seconds ≤ Text.max64) :
    readNode d.toJson.node = .ok d.cut :=
  readNode_eq_ok_iff.mpr ⟨_, rfl, read_render h⟩

theorem seconds_le_of_readNode {node : Json.Node} {d : Span} (h : readNode node = .ok d) :
    d.seconds ≤ Text.max64 := by
  obtain ⟨s, -, hs⟩ := readNode_eq_ok_iff.mp h
  exact seconds_le_of_read hs

end Span

/-! ## Sections -/

namespace ServerSettings

def cut (s : ServerSettings) : ServerSettings :=
  { s with requestTimeout := s.requestTimeout.cut, shutdownTimeout := s.shutdownTimeout.cut }

/-- The numbers and the seconds of the spans fit into their words. -/
def InRange (s : ServerSettings) : Prop :=
  s.tcpPort ≤ Text.max16 ∧ s.requestTimeout.seconds ≤ Text.max64 ∧
    s.shutdownTimeout.seconds ≤ Text.max64

instance (s : ServerSettings) : Decidable s.InRange := inferInstanceAs (Decidable (_ ∧ _ ∧ _))

theorem read_toJson {s : ServerSettings} (h : s.InRange) : read s.toJson.node = .ok s.cut := by
  obtain ⟨hport, hrequest, hshutdown⟩ := h
  have hfills : Fills fields (Json.memberNodes [("host", .text s.host),
      ("port", .integer s.tcpPort), ("request_timeout", s.requestTimeout.toJson),
      ("shutdown_timeout", s.shutdownTimeout.toJson)]) {}
      ⟨some s.host, some s.tcpPort, some s.requestTimeout.cut, some s.shutdownTimeout.cut⟩ :=
    .slot rfl rfl (.slot rfl (natural_eq_ok_iff.mpr ⟨rfl, hport⟩)
      (.slot rfl (Span.readNode_toJson hrequest)
        (.slot rfl (Span.readNode_toJson hshutdown) (.none _ _))))
  exact record_of_fills (by decide) hfills

theorem inRange_of_read {node : Json.Node} {s : ServerSettings} (h : read node = .ok s) :
    s.InRange := by
  have hfields : ∀ field ∈ fields, field.Keeps fun d : Draft => d.finish.InRange := by
    simp only [fields, List.forall_mem_cons, List.not_mem_nil, false_imp_iff, implies_true,
      and_true]
    exact ⟨keeps_slot fun _ _ _ hd _ => hd,
      keeps_slot fun _ _ _ hd hn => ⟨(natural_eq_ok_iff.mp hn).2, hd.2⟩,
      keeps_slot fun _ _ _ hd hn => ⟨hd.1, Span.seconds_le_of_readNode hn, hd.2.2⟩,
      keeps_slot fun _ _ _ hd hn => ⟨hd.1, hd.2.1, Span.seconds_le_of_readNode hn⟩⟩
  obtain ⟨d, hd, hfinish⟩ := exists_of_record h (by decide) hfields
  cases hfinish
  exact hd

end ServerSettings

namespace AuthSettings

def cut (s : AuthSettings) : AuthSettings :=
  { s with loginSpan := s.loginSpan.cut, resetSpan := s.resetSpan.cut }

@[inherit_doc ServerSettings.InRange]
def InRange (s : AuthSettings) : Prop :=
  s.loginSpan.seconds ≤ Text.max64 ∧ s.resetSpan.seconds ≤ Text.max64

instance (s : AuthSettings) : Decidable s.InRange := inferInstanceAs (Decidable (_ ∧ _))

theorem read_toJson {s : AuthSettings} (h : s.InRange) : read s.toJson.node = .ok s.cut := by
  obtain ⟨hlogin, hreset⟩ := h
  have hfills : Fills fields (Json.memberNodes [("secret", .text s.secret),
      ("issuer_name", .text s.issuerName), ("login_duration", s.loginSpan.toJson),
      ("reset_duration", s.resetSpan.toJson)]) {}
      ⟨some s.secret, some s.issuerName, some s.loginSpan.cut, some s.resetSpan.cut⟩ :=
    .slot rfl rfl (.slot rfl rfl (.slot rfl (Span.readNode_toJson hlogin)
      (.slot rfl (Span.readNode_toJson hreset) (.none _ _))))
  exact record_of_fills (by decide) hfills

theorem inRange_of_read {node : Json.Node} {s : AuthSettings} (h : read node = .ok s) :
    s.InRange := by
  have hfields : ∀ field ∈ fields, field.Keeps fun d : Draft => d.finish.InRange := by
    simp only [fields, List.forall_mem_cons, List.not_mem_nil, false_imp_iff, implies_true,
      and_true]
    exact ⟨keeps_slot fun _ _ _ hd _ => hd, keeps_slot fun _ _ _ hd _ => hd,
      keeps_slot fun _ _ _ hd hn => ⟨Span.seconds_le_of_readNode hn, hd.2⟩,
      keeps_slot fun _ _ _ hd hn => ⟨hd.1, Span.seconds_le_of_readNode hn⟩⟩
  obtain ⟨d, hd, hfinish⟩ := exists_of_record h (by decide) hfields
  cases hfinish
  exact hd

end AuthSettings

namespace CoapSettings

def cut (s : CoapSettings) : CoapSettings := { s with accessTimeout := s.accessTimeout.cut }

@[inherit_doc ServerSettings.InRange]
def InRange (s : CoapSettings) : Prop :=
  s.accessTimeout.seconds ≤ Text.max64 ∧ s.outboxCapacity ≤ Text.max64 ∧
    s.brokerCapacity ≤ Text.max64

instance (s : CoapSettings) : Decidable s.InRange := inferInstanceAs (Decidable (_ ∧ _ ∧ _))

/-- The URL is null if there is none, and then it is read as none. -/
theorem exists_url (s : CoapSettings) : ∃ url : Json,
    s.toJson = .object [("things_url", url), ("access_timeout", s.accessTimeout.toJson),
      ("outbox_capacity", .integer s.outboxCapacity),
      ("broker_capacity", .integer s.brokerCapacity)] ∧
    optional text url.node = .ok s.thingsUrl := by
  obtain ⟨thingsUrl, accessTimeout, outbox, broker⟩ := s
  cases thingsUrl with
  | none => exact ⟨.null, rfl, rfl⟩
  | some url => exact ⟨.text url, rfl, rfl⟩

theorem read_toJson {s : CoapSettings} (h : s.InRange) : read s.toJson.node = .ok s.cut := by
  obtain ⟨haccess, houtbox, hbroker⟩ := h
  obtain ⟨url, hjson, hurl⟩ := s.exists_url
  have hfills : Fills fields (Json.memberNodes [("things_url", url),
      ("access_timeout", s.accessTimeout.toJson), ("outbox_capacity", .integer s.outboxCapacity),
      ("broker_capacity", .integer s.brokerCapacity)]) {}
      ⟨some s.thingsUrl, some s.accessTimeout.cut, some s.outboxCapacity, some s.brokerCapacity⟩ :=
    .slot rfl hurl (.slot rfl (Span.readNode_toJson haccess)
      (.slot rfl (natural_eq_ok_iff.mpr ⟨rfl, houtbox⟩)
        (.slot rfl (natural_eq_ok_iff.mpr ⟨rfl, hbroker⟩) (.none _ _))))
  rw [hjson]
  exact record_of_fills (by decide) hfills

theorem inRange_of_read {node : Json.Node} {s : CoapSettings} (h : read node = .ok s) :
    s.InRange := by
  have hfields : ∀ field ∈ fields, field.Keeps fun d : Draft => d.finish.InRange := by
    simp only [fields, List.forall_mem_cons, List.not_mem_nil, false_imp_iff, implies_true,
      and_true]
    exact ⟨keeps_slot fun _ _ _ hd _ => hd,
      keeps_slot fun _ _ _ hd hn => ⟨Span.seconds_le_of_readNode hn, hd.2⟩,
      keeps_slot fun _ _ _ hd hn => ⟨hd.1, (natural_eq_ok_iff.mp hn).2, hd.2.2⟩,
      keeps_slot fun _ _ _ hd hn => ⟨hd.1, hd.2.1, (natural_eq_ok_iff.mp hn).2⟩⟩
  obtain ⟨d, hd, hfinish⟩ := exists_of_record h (by decide) hfields
  cases hfinish
  exact hd

end CoapSettings

/-! ## Settings -/

namespace Settings

/-- The settings with the whole seconds of their spans. -/
def cut (s : Settings) : Settings :=
  { s with server := s.server.cut, auth := s.auth.cut, coap := s.coap.cut }

/-- All spans of the settings. -/
def spans (s : Settings) : List Span :=
  [s.server.requestTimeout, s.server.shutdownTimeout, s.auth.loginSpan, s.auth.resetSpan,
    s.coap.accessTimeout]

@[inherit_doc ServerSettings.InRange]
def InRange (s : Settings) : Prop := s.server.InRange ∧ s.auth.InRange ∧ s.coap.InRange

instance (s : Settings) : Decidable s.InRange := inferInstanceAs (Decidable (_ ∧ _ ∧ _))

theorem read_toJson {s : Settings} (h : s.InRange) : read s.toJson.node = .ok s.cut := by
  obtain ⟨hserver, hauth, hcoap⟩ := h
  have hfills : Fills fields (Json.memberNodes [("env_files", .array (s.envFiles.map Json.text)),
      ("server", s.server.toJson), ("auth", s.auth.toJson), ("coap", s.coap.toJson)]) {}
      ⟨some s.envFiles, some s.server.cut, some s.auth.cut, some s.coap.cut⟩ :=
    .slot rfl (list_map_node fun _ _ => rfl) (.slot rfl (ServerSettings.read_toJson hserver)
      (.slot rfl (AuthSettings.read_toJson hauth)
        (.slot rfl (CoapSettings.read_toJson hcoap) (.none _ _))))
  exact record_of_fills (by decide) hfills

theorem inRange_of_read {node : Json.Node} {s : Settings} (h : read node = .ok s) :
    s.InRange := by
  have hfields : ∀ field ∈ fields, field.Keeps fun d : Draft => d.finish.InRange := by
    simp only [fields, List.forall_mem_cons, List.not_mem_nil, false_imp_iff, implies_true,
      and_true]
    exact ⟨keeps_slot fun _ _ _ hd _ => hd,
      keeps_slot fun _ _ _ hd hn => ⟨ServerSettings.inRange_of_read hn, hd.2⟩,
      keeps_slot fun _ _ _ hd hn => ⟨hd.1, AuthSettings.inRange_of_read hn, hd.2.2⟩,
      keeps_slot fun _ _ _ hd hn => ⟨hd.1, hd.2.1, CoapSettings.inRange_of_read hn⟩⟩
  obtain ⟨d, hd, hfinish⟩ := exists_of_record h (by decide) hfields
  cases hfinish
  exact hd

theorem cut_eq_self_iff {s : Settings} : s.cut = s ↔ ∀ d ∈ s.spans, d.nanos = 0 := by
  obtain ⟨envFiles, ⟨host, tcpPort, requestTimeout, shutdownTimeout⟩,
    ⟨secret, issuerName, loginSpan, resetSpan⟩, ⟨thingsUrl, accessTimeout, outbox, broker⟩⟩ := s
  simp [cut, ServerSettings.cut, AuthSettings.cut, CoapSettings.cut, spans, Span.cut_eq_self_iff,
    and_assoc]

/-! ## Verdicts -/

/-- Cut settings are judged as they were, unless the first span that has to last is cut to
nothing. -/
theorem validate_cut_iff {s : Settings} : s.cut.validate = s.validate ↔
    (Text.trim s.auth.secret.toList).isEmpty = true ∨ s.auth.issuerName.isEmpty = true ∨
      ¬ s.auth.loginSpan.IsShort ∧
        (s.auth.loginSpan.isZero = true ∨ ¬ s.auth.resetSpan.IsShort) := by
  have hcut : s.cut.validate = { s with auth := s.auth.cut }.validate := rfl
  rw [hcut]
  simp only [validate, AuthSettings.cut]
  by_cases hsecret : (Text.trim s.auth.secret.toList).isEmpty = true
  · simp only [hsecret, if_true, true_or]
  by_cases hname : s.auth.issuerName.isEmpty = true
  · simp only [hsecret, hname, if_true, true_or, or_true]
  simp only [hsecret, hname, false_or, Bool.false_eq_true, if_false]
  by_cases hlogin : s.auth.loginSpan.IsShort
  · obtain ⟨hlasts, hcut⟩ := Span.isZero_of_isShort hlogin
    simp only [hlasts, hcut, hlogin, if_true, Bool.false_eq_true, if_false, not_true, false_and,
      iff_false]
    repeat' split
    all_goals simp
  by_cases hzero : s.auth.loginSpan.isZero = true
  · simp only [Span.isZero_cut hlogin, hlogin, hzero, if_true, not_false_iff, true_or, and_self]
  simp only [Span.isZero_cut hlogin, hlogin, hzero, Bool.false_eq_true, if_false, not_false_iff,
    true_and, false_or]
  by_cases hreset : s.auth.resetSpan.IsShort
  · obtain ⟨hlasts, hcut⟩ := Span.isZero_of_isShort hreset
    simp only [hlasts, hcut, hreset, if_true, Bool.false_eq_true, if_false, not_true, iff_false]
    split <;> simp
  · simp only [Span.isZero_cut hreset, hreset, not_false_iff]

end Settings

namespace AuthSettings

/-- What is said of the settings when they are to give a service. -/
def verdict (s : AuthSettings) (source : SecretSource) : Except Failure Unit :=
  (KeyService.ofSettings s source).map fun _ => ()

theorem verdict_eq (s : AuthSettings) (source : SecretSource) :
    s.verdict source = s.resolveSecret source >>= fun _ =>
      checkSpan "login_duration" s.loginSpan >>= fun _ =>
        checkSpan "reset_duration" s.resetSpan := by
  unfold verdict KeyService.ofSettings
  cases s.resolveSecret source with
  | error e => rfl
  | ok secret =>
    cases checkSpan "login_duration" s.loginSpan with
    | error e => rfl
    | ok _ => cases checkSpan "reset_duration" s.resetSpan <;> rfl

/-- A service is refused for the same reason as before, unless the first span that is too long is
cut to one that can be added. -/
theorem verdict_cut_iff {s : AuthSettings} {source : SecretSource} :
    s.cut.verdict source = s.verdict source ↔
      (∃ e, s.resolveSecret source = .error e) ∨
        ¬ s.loginSpan.IsHardlyOver ∧ (¬ s.loginSpan.IsAddable ∨ ¬ s.resetSpan.IsHardlyOver) := by
  have hsecret : s.cut.resolveSecret source = s.resolveSecret source := rfl
  rw [verdict_eq, verdict_eq, hsecret]
  simp only [cut]
  cases s.resolveSecret source with
  | error e => exact ⟨fun _ => .inl ⟨e, rfl⟩, fun _ => rfl⟩
  | ok secret =>
    have hnone : ¬ ∃ e, Except.ok (ε := Failure) secret = .error e := nofun
    rw [or_iff_right hnone]
    simp only [bind, Except.bind]
    by_cases hlogin : s.loginSpan.IsHardlyOver
    · obtain ⟨hover, hcut⟩ := Span.isAddable_of_isHardlyOver hlogin
      rw [Span.checkSpan_of_not_isAddable hover, Span.checkSpan_of_isAddable hcut]
      simp only [hlogin, not_true, false_and, iff_false, checkSpan]
      split <;> decide
    rw [Span.checkSpan_cut hlogin]
    by_cases haddable : s.loginSpan.IsAddable
    · rw [Span.checkSpan_of_isAddable haddable]
      simp only [hlogin, haddable, not_true, not_false_iff, true_and, false_or]
      by_cases hreset : s.resetSpan.IsHardlyOver
      · obtain ⟨hover, hcut⟩ := Span.isAddable_of_isHardlyOver hreset
        rw [Span.checkSpan_of_not_isAddable hover, Span.checkSpan_of_isAddable hcut]
        simp only [hreset, not_true, iff_false]
        exact nofun
      · simp only [Span.checkSpan_cut hreset, hreset, not_false_iff]
    · rw [Span.checkSpan_of_not_isAddable haddable]
      simp only [hlogin, haddable, not_false_iff, true_or, and_self]

end AuthSettings

/-- **What becomes of settings that are written and read.** The spans of settings that were read
come back in whole seconds and everything else comes back as it was, so that the settings are the
same if and only if every span is whole. The verdicts on them are the same if and only if no span
that they turn on loses what counts. -/
theorem written_settings_are_cut {node : Json.Node} {s : Settings}
    (h : Settings.read node = .ok s) :
    document Settings.read (Document.ofString s.toJson.render) = .ok s.cut ∧
    (s.cut = s ↔ ∀ d ∈ s.spans, d.nanos = 0) ∧
    (s.cut.validate = s.validate ↔
      (Text.trim s.auth.secret.toList).isEmpty = true ∨ s.auth.issuerName.isEmpty = true ∨
        ¬ s.auth.loginSpan.IsShort ∧
          (s.auth.loginSpan.isZero = true ∨ ¬ s.auth.resetSpan.IsShort)) ∧
    ∀ source, (s.cut.auth.verdict source = s.auth.verdict source ↔
      (∃ e, s.auth.resolveSecret source = .error e) ∨
        ¬ s.auth.loginSpan.IsHardlyOver ∧
          (¬ s.auth.loginSpan.IsAddable ∨ ¬ s.auth.resetSpan.IsHardlyOver)) := by
  refine ⟨?_, Settings.cut_eq_self_iff, Settings.validate_cut_iff, fun _ =>
    AuthSettings.verdict_cut_iff⟩
  rw [document_render, Settings.read_toJson (Settings.inRange_of_read h)]

/-- A login span of a millisecond too many: no service is given, until the settings are written and
read. -/
theorem hardly_too_long_login_span_is_cut :
    let s : Settings := { auth := { loginSpan := .ofMillis 9223372036854775808 } }
    let source : SecretSource := ⟨fun _ => none, "random"⟩
    document Settings.read (Document.ofString s.toJson.render) = .ok s.cut ∧ s.cut ≠ s ∧
      s.cut.validate = s.validate ∧ s.cut.auth.verdict source ≠ s.auth.verdict source := by
  intro s source
  have hread : Settings.read (.object [(some "auth", .object
      [(some "login_duration", .text "9223372036854775808ms")] true)] true) = .ok s := rfl
  obtain ⟨hback, hsame, hvalid, hverdict⟩ := written_settings_are_cut hread
  refine ⟨hback, fun heq => ?_, hvalid.mpr (by decide), fun heq => ?_⟩
  · exact absurd (hsame.mp heq) (by decide)
  · rcases (hverdict source).mp heq with ⟨e, he⟩ | ⟨hhardly, -⟩
    · cases he
    · exact hhardly (by decide)

/-- A login span of half a second: the settings are fine, until they are written and read. -/
theorem short_login_span_is_lost :
    let s : Settings := { auth := { loginSpan := .ofMillis 500 } }
    document Settings.read
        (Document.ofString "\x7b\"auth\":\x7b\"login_duration\":\"500ms\"\x7d\x7d") = .ok s ∧
      s.validate = .ok () ∧
      ∃ again, document Settings.read (Document.ofString s.toJson.render) = .ok again ∧
        again ≠ s ∧ again.validate = .error (.config "auth.login_duration must be positive") := by
  intro s
  have htext : "\x7b\"auth\":\x7b\"login_duration\":\"500ms\"\x7d\x7d" =
      (Json.object [("auth", .object [("login_duration", .text "500ms")])]).render := rfl
  have hread : document Settings.read
      (Document.ofString "\x7b\"auth\":\x7b\"login_duration\":\"500ms\"\x7d\x7d") = .ok s := by
    rw [htext, document_render]
    rfl
  have hback : document Settings.read (Document.ofString s.toJson.render) = .ok s.cut := by
    rw [document_render, Settings.read_toJson (by decide)]
  exact ⟨hread, by decide, s.cut, hback, by decide, by decide⟩

end Gatehouse
