import Gatehouse.Json.Reader
import Gatehouse.Keys.Key
import Gatehouse.Proofs.Json.Written

/-!
Values and records under their readers. What single values are read from is said by
`text_eq_ok_iff` up to `document_eq_ok_iff`. Of a record, a member that it knows fills its slot; a
member that was left out leaves its slot as it was. So the members of a written record, which stand
in the order of its fields, can be followed one after another (`record_of_fills`). What every field
keeps is true of every record that is read, however it is written (`exists_of_record`).
-/

namespace Gatehouse.Json

/-- One word, in either of its forms. -/
inductive Node.IsWord (word : String) : Node → Prop where
  | plain : IsWord word (.text word)
  | tagged : IsWord word (.object [(some word, .null)] true)

namespace Read

/-! ## Single values -/

/-- A reader that goes on with what another one gives needs both to give something. -/
theorem bind_eq_ok_iff {α β : Type} {x : Except Fault α} {f : α → Except Fault β} {b : β} :
    x >>= f = .ok b ↔ ∃ a, x = .ok a ∧ f a = .ok b := by
  cases x with
  | error e => simp [bind, Except.bind]
  | ok a => simp [bind, Except.bind]

theorem whole_eq_ok_iff {α : Type} {whole : Bool} {x : Except Fault α} {a : α} :
    (if whole then x else .error .malformed) = .ok a ↔ whole = true ∧ x = .ok a := by
  cases whole <;> simp

theorem refuse_ne_ok {α : Type} (node : Node) (a : α) : refuse α node ≠ .ok a := by
  unfold refuse
  split
  · simp
  · simp
  · split <;> simp

theorem text_eq_ok_iff {node : Node} {s : String} : text node = .ok s ↔ node = .text s := by
  unfold text
  split
  · simp
  · next hnode =>
    refine ⟨fun h => absurd h (refuse_ne_ok node s), ?_⟩
    rintro rfl
    exact absurd rfl (hnode s)

theorem text_bind_eq_ok_iff {α : Type} {f : String → Except Fault α} {node : Node} {a : α} :
    text node >>= f = .ok a ↔ ∃ s, node = .text s ∧ f s = .ok a := by
  simp only [bind_eq_ok_iff, text_eq_ok_iff]

theorem optional_ok_iff {α : Type} {read : Node → Except Fault α} {node : Node} :
    (∃ v, optional read node = .ok v) ↔ node = .null ∨ ∃ a, read node = .ok a := by
  unfold optional
  split
  · simp
  · next hnode =>
    rw [or_iff_right (by simpa using hnode)]
    cases read node <;> simp [Except.map]

theorem optional_eq_some_iff {α : Type} {read : Node → Except Fault α} {node : Node} {a : α} :
    optional read node = .ok (some a) ↔ node ≠ .null ∧ read node = .ok a := by
  unfold optional
  split
  · simp
  · next hnode =>
    rw [and_iff_right (by simpa using hnode)]
    cases read node <;> simp [Except.map]

theorem mapM_text_eq_ok_iff {items : List Node} {ss : List String} :
    items.mapM text = .ok ss ↔ items = ss.map fun s => .text s := by
  induction items generalizing ss with
  | nil => cases ss <;> simp [pure, Except.pure]
  | cons item items ih =>
    rw [List.mapM_cons]
    constructor
    · intro h
      obtain ⟨s, hitem, h⟩ := bind_eq_ok_iff.mp h
      obtain ⟨rest, hitems, h⟩ := bind_eq_ok_iff.mp h
      cases h
      rw [List.map_cons, text_eq_ok_iff.mp hitem, ih.mp hitems]
    · cases ss with
      | nil => simp
      | cons s ss =>
        intro h
        obtain ⟨rfl, hitems⟩ := List.cons.inj h
        rw [ih.mpr hitems]
        rfl

theorem list_text_eq_ok_iff {node : Node} {ss : List String} :
    list text node = .ok ss ↔ node = .array (ss.map fun s => .text s) true := by
  unfold list
  split
  · next items closed =>
    rw [Node.array.injEq, ← mapM_text_eq_ok_iff, bind_eq_ok_iff]
    constructor
    · rintro ⟨values, hvalues, h⟩
      obtain ⟨hclosed, h⟩ := whole_eq_ok_iff.mp h
      cases h
      exact ⟨hvalues, hclosed⟩
    · rintro ⟨hvalues, hclosed⟩
      exact ⟨ss, hvalues, whole_eq_ok_iff.mpr ⟨hclosed, rfl⟩⟩
  · next hnode =>
    refine ⟨fun h => absurd h (refuse_ne_ok node ss), ?_⟩
    rintro rfl
    exact absurd rfl (hnode _ _)

theorem integer_eq_ok_iff {low high n : Int} {node : Node} :
    integer low high node = .ok n ↔ node = .integer n ∧ low ≤ n ∧ n ≤ high := by
  unfold integer
  split
  · next m =>
    rw [Node.integer.injEq]
    split
    · next hrange =>
      simp only [Except.ok.injEq]
      exact ⟨fun h => ⟨h, h ▸ hrange⟩, And.left⟩
    · next hrange =>
      refine ⟨fun h => absurd h (refuse_ne_ok _ n), ?_⟩
      rintro ⟨rfl, h⟩
      exact absurd h hrange
  · next hnode =>
    refine ⟨fun h => absurd h (refuse_ne_ok node n), ?_⟩
    rintro ⟨rfl, -⟩
    exact absurd rfl (hnode n)

theorem signed64_eq_ok_iff {n : Int} {node : Node} : signed64 node = .ok n ↔
    node = .integer n ∧ -9223372036854775808 ≤ n ∧ n ≤ 9223372036854775807 :=
  integer_eq_ok_iff

theorem natural_eq_ok_iff {high n : Nat} {node : Node} :
    natural high node = .ok n ↔ node = .integer n ∧ n ≤ high := by
  unfold natural
  cases hread : integer 0 high node with
  | error e =>
    refine ⟨(by cases ·), fun ⟨hnode, hn⟩ => ?_⟩
    have hok : integer 0 high node = .ok n := integer_eq_ok_iff.mpr ⟨hnode, by omega, by omega⟩
    cases hread.symm.trans hok
  | ok m =>
    obtain ⟨rfl, hlow, hhigh⟩ := integer_eq_ok_iff.mp hread
    simp only [Except.map, Except.ok.injEq, Node.integer.injEq]
    omega

/-- A choice is read from its word. -/
theorem choice_eq_ok_iff {α : Type} {words : List (String × α)} {node : Node} {a : α} :
    choice words node = .ok a ↔ ∃ word, node.IsWord word ∧ words.lookup word = some a := by
  constructor
  · intro h
    unfold choice at h
    split at h
    · next s =>
      split at h
      · next b hb =>
        cases h
        exact ⟨s, .plain, hb⟩
      · cases h
    · next rest closed =>
      split at h
      · cases h
      · next s =>
        split at h
        · cases h
        · next b hb =>
          split at h
          · next hshut =>
            obtain ⟨rfl, hrest⟩ : closed = true ∧ rest.isEmpty = true := by simpa using hshut
            obtain rfl := List.isEmpty_iff.mp hrest
            cases h
            exact ⟨s, .tagged, hb⟩
          · cases h
        · exact absurd h (refuse_ne_ok _ a)
    · exact absurd h (refuse_ne_ok _ a)
  · rintro ⟨word, hword, ha⟩
    cases hword <;> simp [choice, ha]

/-- A whole text is read if its value is and nothing follows that. -/
theorem document_eq_ok_iff {α : Type} {read : Node → Except Fault α} {doc : Document} {a : α} :
    document read doc = .ok a ↔ doc.ended = true ∧ read doc.root = .ok a := by
  rw [document, bind_eq_ok_iff]
  constructor
  · rintro ⟨b, hread, h⟩
    obtain ⟨hended, h⟩ := whole_eq_ok_iff.mp h
    cases h
    exact ⟨hended, hread⟩
  · rintro ⟨hended, hread⟩
    exact ⟨a, hread, whole_eq_ok_iff.mpr ⟨hended, rfl⟩⟩

/-- A written value is read from its text as it is. -/
theorem document_render {α : Type} (read : Node → Except Fault α) (j : Json) :
    document read (Document.ofString j.render) = read j.node := by
  rw [ofString_render, document]
  cases read j.node <;> rfl

/-! ## Records in the order of their fields -/

theorem mem_memberNodes {ms : List (String × Json)} {m : Option String × Node}
    (h : m ∈ memberNodes ms) : ∃ key ∈ ms.map Prod.fst, m.1 = some key := by
  induction ms with
  | nil => cases h
  | cons first ms ih =>
    obtain ⟨key, value⟩ := first
    rw [memberNodes, List.mem_cons] at h
    rcases h with rfl | h
    · exact ⟨key, by simp, rfl⟩
    · obtain ⟨k, hk, he⟩ := ih h
      exact ⟨k, by simp at hk ⊢; exact .inr hk, he⟩

section
variable {σ α : Type} {all fields : List (RecordField σ)} {rest : List (Option String × Node)}
  {s s' : σ} {name : String}

/-- Members that stand in the order of the fields, some fields left out, fill the slots one by
one. -/
inductive Fills : List (RecordField σ) → List (Option String × Node) → σ → σ → Prop where
  | none (fields : List (RecordField σ)) (s : σ) : Fills fields [] s s
  | read {field : RecordField σ} {fields : List (RecordField σ)} {node : Node}
    {rest : List (Option String × Node)} {s filled s' : σ} (hfree : field.isSet s = false)
    (hread : field.read node s = .ok filled) (hrest : Fills fields rest filled s') :
    Fills (field :: fields) ((some field.name, node) :: rest) s s'
  | skip {field : RecordField σ} {fields : List (RecordField σ)}
    {ms : List (Option String × Node)} {s s' : σ} (hrest : Fills fields ms s s') :
    Fills (field :: fields) ms s s'

theorem find?_field (hnames : (all.map RecordField.name).Nodup) {field : RecordField σ}
    (hmem : field ∈ all) : all.find? (·.name == field.name) = some field := by
  induction all with
  | nil => cases hmem
  | cons first all ih =>
    rw [List.map_cons, List.nodup_cons] at hnames
    rcases List.mem_cons.mp hmem with rfl | hmem
    · simp
    · have hne : first.name ≠ field.name := fun heq =>
        hnames.1 (heq ▸ List.mem_map_of_mem hmem)
      rw [List.find?_cons_of_neg (by simpa using hne), ih hnames.2 hmem]

theorem Fills.foldlM {ms : List (Option String × Node)} (h : Fills fields ms s s')
    (hnames : (all.map RecordField.name).Nodup) (hall : ∀ field ∈ fields, field ∈ all) :
    ms.foldlM (member all) s = .ok s' := by
  induction h with
  | none => rfl
  | @read field fields node rest s filled s' hfree hread _ ih =>
    obtain ⟨hfield, hfields⟩ := List.forall_mem_cons.mp hall
    have hmember : member all s (some field.name, node) = .ok filled := by
      simp only [member, find?_field hnames hfield, hfree, Bool.false_eq_true, if_false, hread]
    rw [List.foldlM_cons, hmember]
    exact ih hfields
  | skip _ ih => exact ih (List.forall_mem_cons.mp hall).2

theorem Fills.slot {get : σ → Option α} {set : σ → Option α → σ} {read : Node → Except Fault α}
    {node : Node} {a : α} (hfree : get s = .none) (hread : read node = .ok a)
    (hrest : Fills fields rest (set s (some a)) s') :
    Fills (.slot name get set read :: fields) ((some name, node) :: rest) s s' :=
  .read (by simp [RecordField.slot, hfree]) (by simp [RecordField.slot, hread, Except.map]) hrest

/-- A text that is left out when empty. -/
theorem Fills.textMember {get : σ → Option String} {set : σ → Option String → σ} {v : String}
    (hfree : get s = .none) (hblank : set s .none = s)
    (hrest : Fills fields rest (set s (if v.isEmpty then .none else some v)) s') :
    Fills (.slot name get set text :: fields)
      (memberNodes (Key.textMember name v) ++ rest) s s' := by
  unfold Key.textMember
  split
  · next hempty =>
    rw [if_pos hempty, hblank] at hrest
    exact .skip hrest
  · next hfull =>
    rw [if_neg hfull] at hrest
    exact .slot hfree rfl hrest

theorem getD_textMember (v : String) : (if v.isEmpty then none else some v).getD "" = v := by
  split
  · next h => exact (String.isEmpty_iff.mp h).symm
  · rfl

/-- A value that is left out when absent. -/
theorem Fills.optionalMember {get : σ → Option (Option α)} {set : σ → Option (Option α) → σ}
    {read : Node → Except Fault α} {toJson : α → Json} {v : Option α}
    (hfree : get s = .none) (hblank : set s .none = s)
    (hread : ∀ a, v = some a → Json.Read.optional read (toJson a).node = .ok (some a))
    (hrest : Fills fields rest (set s (v.map some)) s') :
    Fills (.slot name get set (Json.Read.optional read) :: fields)
      (memberNodes (Key.optionalMember name toJson v) ++ rest) s s' := by
  cases v with
  | none =>
    rw [Option.map_none, hblank] at hrest
    exact .skip hrest
  | some a =>
    exact .slot hfree (hread a rfl) hrest

theorem getD_map_some (v : Option α) : (v.map some).getD none = v := by
  cases v <;> rfl

/-- A record whose members stand in order is what its filled slots make. -/
theorem record_of_fills {blank : σ} {finish : σ → Except Fault α} {ms : List (String × Json)}
    (hnames : (all.map RecordField.name).Nodup) (h : Fills all (memberNodes ms) blank s') :
    record all blank finish (Json.object ms).node = finish s' := by
  show (memberNodes ms).foldlM (member all) blank >>= _ = _
  rw [h.foldlM hnames fun _ hfield => hfield]
  rfl

end

/-- A list is read if its items are. -/
theorem list_map_node {α : Type} {read : Node → Except Fault α} {toJson : α → Json} {as : List α}
    (h : ∀ a ∈ as, read (toJson a).node = .ok a) :
    list read (Json.array (as.map toJson)).node = .ok as := by
  have hitems : (nodes (as.map toJson)).mapM read = .ok as := by
    induction as with
    | nil => rfl
    | cons a as ih =>
      obtain ⟨ha, has⟩ := List.forall_mem_cons.mp h
      rw [List.map_cons, nodes, List.mapM_cons, ha, ih has]
      rfl
  simp only [node, list, hitems]
  rfl

/-! ## What every read record has -/

theorem slot_read_eq_ok_iff {σ α : Type} {name : String} {get : σ → Option α}
    {set : σ → Option α → σ} {read : Node → Except Fault α} {node : Node} {s s' : σ} :
    (RecordField.slot name get set read).read node s = .ok s' ↔
      ∃ a, read node = .ok a ∧ set s (some a) = s' := by
  simp only [RecordField.slot]
  cases read node <;> simp [Except.map]

section
variable {σ α : Type} {fields : List (RecordField σ)} {P : σ → Prop} {s s' : σ}

/-- Reading a field keeps what is true of the record under construction. -/
def RecordField.Keeps (P : σ → Prop) (field : RecordField σ) : Prop :=
  ∀ node s s', P s → field.read node s = .ok s' → P s'

theorem keeps_slot {name : String} {get : σ → Option α} {set : σ → Option α → σ}
    {read : Node → Except Fault α} (h : ∀ node a s, P s → read node = .ok a → P (set s (some a))) :
    (RecordField.slot name get set read).Keeps P := by
  intro node s s' hs hread
  obtain ⟨a, ha, rfl⟩ := slot_read_eq_ok_iff.mp hread
  exact h node a s hs ha

theorem of_member (hfields : ∀ field ∈ fields, field.Keeps P) (hs : P s)
    {m : Option String × Node} (h : member fields s m = .ok s') : P s' := by
  obtain ⟨key, node⟩ := m
  unfold member at h
  split at h
  · cases h
  · split at h
    · split at h
      · cases h
        exact hs
      · cases h
    · next field hfind =>
      split at h
      · cases h
      · exact hfields field (List.mem_of_find?_eq_some hfind) _ s s' hs h

theorem of_foldlM_member (hfields : ∀ field ∈ fields, field.Keeps P) (hs : P s)
    {ms : List (Option String × Node)} (h : ms.foldlM (member fields) s = .ok s') : P s' := by
  induction ms generalizing s with
  | nil =>
    cases h
    exact hs
  | cons m ms ih =>
    rw [List.foldlM_cons] at h
    obtain ⟨next, hm, h⟩ := bind_eq_ok_iff.mp h
    exact ih (of_member hfields hs hm) h

theorem of_positional (hfields : ∀ field ∈ fields, field.Keeps P) (hs : P s) {items : List Node}
    (h : positional fields items s = .ok s') : P s' := by
  induction fields generalizing items s with
  | nil =>
    cases items with
    | nil =>
      cases h
      exact hs
    | cons => cases h
  | cons field fields ih =>
    obtain ⟨hfield, hrest⟩ := List.forall_mem_cons.mp hfields
    cases items with
    | nil =>
      cases h
      exact hs
    | cons item items =>
      rw [positional] at h
      obtain ⟨next, hread, h⟩ := bind_eq_ok_iff.mp h
      exact ih hrest (hfield item s next hs hread) h

/-- What is true of the blank record, and kept by every field, is true of the record when it is
finished. -/
theorem exists_of_record {blank : σ} {finish : σ → Except Fault α} {node : Node} {a : α}
    (h : record fields blank finish node = .ok a) (hblank : P blank)
    (hfields : ∀ field ∈ fields, field.Keeps P) : ∃ s, P s ∧ finish s = .ok a := by
  unfold record at h
  split at h
  · next ms closed =>
    obtain ⟨s, hms, h⟩ := bind_eq_ok_iff.mp h
    exact ⟨s, of_foldlM_member hfields hblank hms, (whole_eq_ok_iff.mp h).2⟩
  · next items closed =>
    obtain ⟨s, hitems, h⟩ := bind_eq_ok_iff.mp h
    exact ⟨s, of_positional hfields hblank hitems, (whole_eq_ok_iff.mp h).2⟩
  · exact absurd h (refuse_ne_ok _ a)

end

end Read
end Gatehouse.Json
