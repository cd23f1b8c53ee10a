import Gatehouse.Message
import Gatehouse.Proofs.Json.Record

/-!
Messages in their written form. The fields of a written message stand in order, the subtopic left
out if there is none, so that it is read back as it was (`read_toJson`). A message that was read has
a time of 64 bits, however it was written (`inRange_of_read`); so it can be written and read again.
-/

namespace Gatehouse.Message

open Json.Read
open Json (Document)

/-- The time of a message fits into 64 bits. -/
def InRange (m : Message) : Prop :=
  -9223372036854775808 ≤ m.created ∧ m.created ≤ 9223372036854775807

instance (m : Message) : Decidable m.InRange := inferInstanceAs (Decidable (_ ∧ _))

theorem read_byte (b : UInt8) :
    (natural 255 (Json.integer b.toNat).node).map UInt8.ofNat = .ok b := by
  have hbyte : natural 255 (Json.integer b.toNat).node = .ok b.toNat :=
    natural_eq_ok_iff.mpr ⟨rfl, Nat.le_of_lt_succ b.toNat_lt⟩
  rw [hbyte, Except.map, UInt8.ofNat_toNat]

theorem read_toJson {m : Message} (h : m.InRange) : read m.toJson.node = .ok m := by
  obtain ⟨channel, subtopic, publisher, protocol, payload, created⟩ := m
  have hfills : Fills fields (Json.memberNodes (
      [("channel", .text channel)] ++ Key.textMember "subtopic" subtopic ++
      [("publisher", .text publisher), ("protocol", .text protocol),
        ("payload", .array (payload.map fun b => .integer b.toNat)),
        ("created", .integer created)])) {}
      ⟨some channel, if subtopic.isEmpty then none else some subtopic, some publisher,
        some protocol, some payload, some created⟩ := by
    simp only [Json.memberNodes_append, List.append_assoc]
    exact .slot rfl rfl (.textMember rfl rfl (.slot rfl rfl (.slot rfl rfl
      (.slot rfl (list_map_node fun b _ => read_byte b)
        (.slot rfl (signed64_eq_ok_iff.mpr ⟨rfl, h⟩) (.none _ _))))))
  refine (record_of_fills (by decide) hfills).trans ?_
  show Except.ok (Message.mk _ _ _ _ _ _) = _
  rw [getD_textMember]
  rfl

theorem inRange_of_read {node : Json.Node} {m : Message} (h : read node = .ok m) : m.InRange := by
  let P : Draft → Prop := fun d =>
    ∀ n, d.created = some n → -9223372036854775808 ≤ n ∧ n ≤ 9223372036854775807
  have hfields : ∀ field ∈ fields, field.Keeps P := by
    simp only [fields, List.forall_mem_cons, List.not_mem_nil, false_imp_iff, implies_true,
      and_true]
    refine ⟨keeps_slot fun _ _ _ hs _ => hs, keeps_slot fun _ _ _ hs _ => hs,
      keeps_slot fun _ _ _ hs _ => hs, keeps_slot fun _ _ _ hs _ => hs,
      keeps_slot fun _ _ _ hs _ => hs, keeps_slot fun _ n _ _ hn => ?_⟩
    rintro m ⟨⟩
    exact (signed64_eq_ok_iff.mp hn).2
  obtain ⟨d, hd, hfinish⟩ := exists_of_record (P := P) h (fun _ hn => by cases hn) hfields
  have hcreated : m.created = d.created.getD 0 := by
    unfold Draft.finish at hfinish
    cases hchannel : d.channel with
    | none => rw [hchannel] at hfinish; cases hfinish
    | some channel => rw [hchannel] at hfinish; cases hfinish; rfl
  rw [InRange, hcreated]
  cases hn : d.created with
  | none => decide
  | some n => exact hd n hn

/-- **A written message is read back as it was.** Whatever its texts, bytes and time are, nothing of
it is lost, so that different messages have different texts. And from whatever text a message was
read, in whatever form, its own text is read as the same message, to the same endpoint and on the
same subject. -/
theorem text_tells_message :
    (∀ m : Message, m.InRange → document read (Document.ofString m.toJson.render) = .ok m) ∧
    (∀ m m' : Message, m.InRange → m'.InRange →
      m.toJson.render = m'.toJson.render → m = m') ∧
    ∀ (bytes : List UInt8) (m : Message), document read (Document.ofBytes bytes) = .ok m →
      ∃ again, document read (Document.ofString m.toJson.render) = .ok again ∧
        again = m ∧ again.endpoint = m.endpoint ∧ again.subject = m.subject := by
  have hback : ∀ m : Message, m.InRange →
      document read (Document.ofString m.toJson.render) = .ok m := fun m h => by
    rw [document_render, read_toJson h]
  refine ⟨hback, fun m m' h h' heq => ?_, fun bytes m hread => ?_⟩
  · have hm := hback m h
    rw [heq, hback m' h'] at hm
    exact (Except.ok.inj hm).symm
  · have hrange : m.InRange := inRange_of_read (document_eq_ok_iff.mp hread).2
    exact ⟨m, hback m hrange, rfl, rfl, rfl⟩

/-- A message with everything in it that is written with an escape, without a subtopic and before
1970; and one that was written as an array, with the time left out. -/
theorem escaped_text_tells_message :
    let m : Message :=
      { channel := "\"\\\n\x01é😀", payload := [0, 255], created := -9223372036854775808 }
    m.InRange ∧ document read (Document.ofString m.toJson.render) = .ok m ∧
      { m with subtopic := "t" }.toJson.render ≠ m.toJson.render ∧
      ∃ again,
        document read (Document.ofBytes (Text.utf8 "[\"c\",\"t\",\"p\",\"\",[7]]".toList)) =
          .ok ⟨"c", "t", "p", "", [7], 0⟩ ∧
        document read
          (Document.ofString (toJson ⟨"c", "t", "p", "", [7], 0⟩).render) = .ok again ∧
        again.endpoint = "c.t" := by
  intro m
  obtain ⟨hback, hdiffer, hagain⟩ := text_tells_message
  have h : m.InRange := by decide
  have htext : "[\"c\",\"t\",\"p\",\"\",[7]]".toList =
      (Json.array [.text "c", .text "t", .text "p", .text "", .array [.integer 7]]).write := rfl
  have hread : document read (Document.ofBytes (Text.utf8 "[\"c\",\"t\",\"p\",\"\",[7]]".toList)) =
      .ok ⟨"c", "t", "p", "", [7], 0⟩ := by
    rw [htext, Json.ofBytes_write]
    rfl
  refine ⟨h, hback m h, fun heq => ?_, ?_⟩
  · exact absurd (hdiffer { m with subtopic := "t" } m h h heq) (by decide)
  · obtain ⟨again, hwritten, -, hendpoint, -⟩ := hagain _ _ hread
    exact ⟨again, hread, hwritten, hendpoint.trans (by decide)⟩

end Gatehouse.Message
