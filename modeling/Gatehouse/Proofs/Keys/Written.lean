import Gatehouse.Proofs.Json.Record
import Gatehouse.Proofs.Time.Rfc3339

/-!
Keys in their written form. A key tells its times as texts of a clock, so it is read back exactly if
a clock can show them. Every key that is read is such a key, in whatever form and by whatever clock
it was written.
-/

namespace Gatehouse.Key

open Json.Read
open Json (Document)

/-- A clock can show when the key was issued and when it expires. -/
def OnClock (key : Key) : Prop :=
  key.issuedAt.OnClock ∧ ∀ t, key.expiresAt = some t → t.OnClock

theorem readInstant_eq_ok_iff {node : Json.Node} {t : Instant} :
    readInstant node = .ok t ↔ ∃ s, node = .text s ∧ Rfc3339.read? s = some t := by
  rw [readInstant, text_bind_eq_ok_iff]
  refine exists_congr fun s => and_congr_right fun _ => ?_
  cases Rfc3339.read? s <;> simp

theorem readInstant_toJson_iff {t : Instant} :
    readInstant (instantToJson t).node = .ok t ↔ t.OnClock := by
  rw [readInstant_eq_ok_iff, ← Rfc3339.read?_render_iff]
  simp [instantToJson, Json.node]

theorem onClock_of_readInstant {node : Json.Node} {t : Instant} (h : readInstant node = .ok t) :
    t.OnClock := by
  obtain ⟨s, -, hs⟩ := readInstant_eq_ok_iff.mp h
  exact Rfc3339.onClock_of_read hs

theorem read_toJson {key : Key} (h : key.OnClock) : read key.toJson.node = .ok key := by
  obtain ⟨id, kind, issuer, secret, issuedAt, expiresAt⟩ := key
  have hkind : KeyKind.read kind.toJson.node = .ok kind := by cases kind <;> rfl
  have hexpires : ∀ t, expiresAt = some t →
      optional readInstant (instantToJson t).node = .ok (some t) := fun t ht =>
    optional_eq_some_iff.mpr ⟨nofun, readInstant_toJson_iff.mpr (h.2 t ht)⟩
  have hfills : Fills fields (Json.memberNodes (
      [("id", .text id), ("type", kind.toJson), ("issuer", .text issuer)] ++
      textMember "secret" secret ++ [("issued_at", instantToJson issuedAt)] ++
      optionalMember "expires_at" instantToJson expiresAt)) {}
      ⟨some id, some kind, some issuer, if secret.isEmpty then none else some secret,
        some issuedAt, expiresAt.map some⟩ := by
    rw [← List.append_nil (optionalMember "expires_at" _ _)]
    simp only [Json.memberNodes_append, List.append_assoc]
    exact .slot rfl rfl (.slot rfl hkind (.slot rfl rfl
      (.textMember rfl rfl (.slot rfl (readInstant_toJson_iff.mpr h.1)
        (.optionalMember rfl rfl hexpires (.none _ _))))))
  refine (record_of_fills (by decide) hfills).trans ?_
  show Except.ok (Key.mk _ _ _ _ _ _) = _
  simp only [getD_textMember, getD_map_some]
  rfl

theorem onClock_of_read {node : Json.Node} {key : Key} (h : read node = .ok key) :
    key.OnClock := by
  let P : Draft → Prop := fun d =>
    (∀ t, d.issuedAt = some t → t.OnClock) ∧ ∀ t, d.expiresAt = some (some t) → t.OnClock
  have hfields : ∀ field ∈ fields, field.Keeps P := by
    simp only [fields, List.forall_mem_cons, List.not_mem_nil, false_imp_iff, implies_true,
      and_true]
    refine ⟨keeps_slot fun _ _ _ hs _ => hs, keeps_slot fun _ _ _ hs _ => hs,
      keeps_slot fun _ _ _ hs _ => hs, keeps_slot fun _ _ _ hs _ => hs,
      keeps_slot fun _ t _ hs ht => ⟨?_, hs.2⟩, keeps_slot fun node v _ hs hv => ⟨hs.1, ?_⟩⟩
    · rintro u ⟨⟩
      exact onClock_of_readInstant ht
    · rintro u ⟨⟩
      exact onClock_of_readInstant (optional_eq_some_iff.mp hv).2
  obtain ⟨d, hd, hfinish⟩ := exists_of_record (P := P) h ⟨nofun, nofun⟩ hfields
  obtain ⟨id, kind, issuer, secret, issuedAt, expiresAt⟩ := d
  cases kind with
  | none => cases hfinish
  | some kind =>
    cases issuedAt with
    | none => cases hfinish
    | some issuedAt =>
      cases hfinish
      refine ⟨hd.1 issuedAt rfl, fun t ht => hd.2 t ?_⟩
      cases expiresAt with
      | none => cases ht
      | some v => exact congrArg some ht

/-- **A written key is read back as it was, to the nanosecond, exactly if a clock can show its
times.** That is so of every key that was read, whatever form and offsets its text had. -/
theorem text_tells_key :
    (∀ key : Key, document read (Document.ofString key.toJson.render) = .ok key ↔ key.OnClock) ∧
    ∀ (bytes : List UInt8) (key : Key), document read (Document.ofBytes bytes) = .ok key →
      key.OnClock ∧ document read (Document.ofString key.toJson.render) = .ok key := by
  have hback : ∀ key : Key,
      document read (Document.ofString key.toJson.render) = .ok key ↔ key.OnClock := fun key => by
    rw [document_render]
    exact ⟨onClock_of_read, read_toJson⟩
  refine ⟨hback, fun bytes key hread => ?_⟩
  have hclock : key.OnClock := onClock_of_read (document_eq_ok_iff.mp hread).2
  exact ⟨hclock, (hback key).mpr hclock⟩

/-- A key for as long as the calendar lasts, and one that was written as an array, by a clock an
hour and a half ahead. -/
theorem calendar_text_tells_key :
    let key : Key :=
      { id := "k\u0000", kind := .user, issuer := "é", secret := "",
        issuedAt := ⟨Instant.firstSecond, 1, by decide⟩,
        expiresAt := some ⟨Instant.lastSecond, 999999999, by decide⟩ }
    let array := "[\"\",\"reset\",\"ann\",\"s\",\"-0400-03-01t01:29:59.00002+01:30\"]"
    let keyOfArray : Key :=
      { id := "", kind := .reset, issuer := "ann", secret := "s",
        issuedAt := ⟨-74784816001, 20000, by decide⟩, expiresAt := none }
    document read (Document.ofString key.toJson.render) = .ok key ∧
      document read (Document.ofBytes (Text.utf8 array.toList)) = .ok keyOfArray ∧
      document read (Document.ofString keyOfArray.toJson.render) = .ok keyOfArray := by
  intro key array keyOfArray
  have htime : Rfc3339.read? "-0400-03-01t01:29:59.00002+01:30" = some keyOfArray.issuedAt := by
    decide
  have hinstant := readInstant_eq_ok_iff.mpr ⟨_, rfl, htime⟩
  have htext : array.toList = (Json.array (["", "reset", "ann", "s",
      "-0400-03-01t01:29:59.00002+01:30"].map Json.text)).write := by decide
  have hread : document read (Document.ofBytes (Text.utf8 array.toList)) = .ok keyOfArray := by
    rw [htext, Json.ofBytes_write, document_eq_ok_iff]
    refine ⟨rfl, ?_⟩
    simp only [List.map_cons, List.map_nil, Json.node, Json.nodes, read, record, fields,
      positional, RecordField.slot, hinstant]
    rfl
  refine ⟨(text_tells_key.1 key).mpr ⟨by decide, ?_⟩, hread,
    (text_tells_key.2 _ keyOfArray hread).2⟩
  rintro t ⟨⟩
  decide

end Gatehouse.Key
