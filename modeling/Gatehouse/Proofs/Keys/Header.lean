import Gatehouse.Keys.Token
import Gatehouse.Proofs.Json.Record
import Mathlib.Data.List.Nodup

/-!
Token headers. `Token.IsHeader` says what a header is without going through it member by member:
which values the members may have, that none with a meaning of its own comes twice, and that one
names the algorithm. Exactly those are read, if the name is a known one (`readHeader_eq_ok_iff`).
-/

namespace Gatehouse.Token

open Json (Node)

/-! ## Names of algorithms -/

/-- The keyed digests, which are accepted. -/
def keyedAlgorithms : List (String × Digest.HashFunction) :=
  [("HS256", Digest.sha256), ("HS384", Digest.sha384), ("HS512", Digest.sha512)]

/-- The kinds of signature that are known but not accepted. -/
def foreignAlgorithms : List String :=
  ["ES256", "ES384", "RS256", "RS384", "RS512", "PS256", "PS384", "PS512", "EdDSA"]

theorem algorithms_eq : algorithms =
    keyedAlgorithms.map (fun p => (p.1, .hmac p.2)) ++
      foreignAlgorithms.map fun name => (name, .foreign) := rfl

/-- In a table without a name twice, what is found is what stands there. -/
theorem lookup_eq_some_iff_mem {α : Type} {table : List (String × α)}
    (hnodup : (table.map Prod.fst).Nodup) {name : String} {a : α} :
    table.lookup name = some a ↔ (name, a) ∈ table := by
  induction table with
  | nil => simp
  | cons entry table ih =>
    obtain ⟨first, b⟩ := entry
    rw [List.map_cons, List.nodup_cons] at hnodup
    rw [List.lookup_cons, List.mem_cons, Prod.mk.injEq]
    by_cases hfirst : name = first
    · subst hfirst
      have hnot : (name, a) ∉ table := fun h => hnodup.1 (List.mem_map.mpr ⟨_, h, rfl⟩)
      simp [hnot, eq_comm]
    · rw [beq_eq_false_iff_ne.mpr hfirst, ih hnodup.2]
      simp [hfirst]

theorem nodup_algorithms : (algorithms.map Prod.fst).Nodup := by decide

theorem lookup_eq_hmac_iff {name : String} {f : Digest.HashFunction} :
    algorithms.lookup name = some (.hmac f) ↔ (name, f) ∈ keyedAlgorithms := by
  rw [lookup_eq_some_iff_mem nodup_algorithms, algorithms_eq]
  simp

/-- The members with a meaning of their own. -/
def knownMembers : List String := "alg" :: "jwk" :: (textMembers ++ listMembers)

/-- The values that the members of a header may have. -/
inductive Admits : String → Node → Prop where
  | algorithm {word : String} {node : Node} : node.IsWord word → Admits "alg" node
  | blank {name : String} : name ∈ knownMembers → name ≠ "alg" → Admits name .null
  | text {name : String} (value : String) : name ∈ textMembers → Admits name (.text value)
  | texts {name : String} (values : List String) : name ∈ listMembers →
      Admits name (.array (values.map fun value => .text value) true)
  | key {node : Node} : Jwk.isKey node = true → Admits "jwk" node
  | extra {name : String} (value : String) : name ∉ knownMembers →
      Admits name (.text value)

/-- The names of the members with a meaning of their own, in order. -/
def knownNames (members : List (String × Node)) : List String :=
  (members.map Prod.fst).filter fun name => name ∈ knownMembers

/-- Members under names that are text. -/
def named (members : List (String × Node)) : List (Option String × Node) :=
  members.map fun m => (some m.1, m.2)

/-- A header that names an algorithm, known or not. -/
def IsHeader (node : Node) (algorithm : String) : Prop :=
  ∃ members, node = .object (named members) true ∧ (∀ m ∈ members, Admits m.1 m.2) ∧
    (knownNames members).Nodup ∧ ∃ value, ("alg", value) ∈ members ∧ value.IsWord algorithm

/-! ## Values of members

Every reader of a member takes exactly the values that its name admits. The names are told apart by
the lists that they stand in. -/

theorem text_apart : ∀ name ∈ textMembers,
    name ≠ "alg" ∧ name ≠ "jwk" ∧ name ∉ listMembers ∧ name ∈ knownMembers := by decide

theorem list_apart : ∀ name ∈ listMembers,
    name ≠ "alg" ∧ name ≠ "jwk" ∧ name ∉ textMembers ∧ name ∈ knownMembers := by decide

theorem jwk_apart : "jwk" ∉ textMembers ∧ "jwk" ∉ listMembers ∧ "jwk" ∈ knownMembers := by decide

variable {name : String} {node value : Node}

theorem admits_text_iff (hname : name ∈ textMembers) :
    (∃ v, Json.Read.optional Json.Read.text node = .ok v) ↔ Admits name node := by
  obtain ⟨halg, hjwk, hlist, hknown⟩ := text_apart name hname
  rw [Json.Read.optional_ok_iff]
  simp only [Json.Read.text_eq_ok_iff]
  constructor
  · rintro (rfl | ⟨v, rfl⟩)
    · exact .blank hknown halg
    · exact .text v hname
  · intro h
    cases h with
    | algorithm => exact absurd rfl halg
    | blank => exact .inl rfl
    | text v => exact .inr ⟨v, rfl⟩
    | texts _ h => exact absurd h hlist
    | key => exact absurd rfl hjwk
    | extra v h => exact absurd hknown h

theorem admits_list_iff (hname : name ∈ listMembers) :
    (∃ v, Json.Read.optional (Json.Read.list Json.Read.text) node = .ok v) ↔
      Admits name node := by
  obtain ⟨halg, hjwk, htext, hknown⟩ := list_apart name hname
  rw [Json.Read.optional_ok_iff]
  simp only [Json.Read.list_text_eq_ok_iff]
  constructor
  · rintro (rfl | ⟨vs, rfl⟩)
    · exact .blank hknown halg
    · exact .texts vs hname
  · intro h
    cases h with
    | algorithm => exact absurd rfl halg
    | blank => exact .inl rfl
    | text _ h => exact absurd h htext
    | texts vs => exact .inr ⟨vs, rfl⟩
    | key => exact absurd rfl hjwk
    | extra v h => exact absurd hknown h

theorem admits_jwk_iff : Jwk.orNull Jwk.isKey node = true ↔ Admits "jwk" node := by
  obtain ⟨htext, hlist, hknown⟩ := jwk_apart
  constructor
  · intro h
    unfold Jwk.orNull at h
    split at h
    · exact .blank hknown (by decide)
    · exact .key h
  · intro h
    generalize hname : "jwk" = name at h
    cases h with
    | algorithm => exact absurd hname (by decide)
    | blank => rfl
    | text _ h => exact absurd (hname ▸ h) htext
    | texts _ h => exact absurd (hname ▸ h) hlist
    | key h =>
      unfold Jwk.orNull
      split
      · rfl
      · exact h
    | extra v h => exact absurd (hname ▸ hknown) h

theorem admits_extra_iff (hname : name ∉ knownMembers) :
    (∃ v, Json.Read.text node = .ok v) ↔ Admits name node := by
  simp only [Json.Read.text_eq_ok_iff]
  constructor
  · rintro ⟨v, rfl⟩
    exact .extra v hname
  · intro h
    cases h with
    | algorithm => exact absurd List.mem_cons_self hname
    | blank h => exact absurd h hname
    | text v h => exact absurd (text_apart name h).2.2.2 hname
    | texts v h => exact absurd (list_apart name h).2.2.2 hname
    | key => exact absurd jwk_apart.2.2 hname
    | extra v => exact ⟨v, rfl⟩

/-! ## One member -/

/-- The names met after a member: one with a meaning of its own must not come again. -/
def noted (met : List String) (name : String) : List String :=
  if name ∈ knownMembers then name :: met else met

variable {d d' : HeaderDraft} {a : Algorithm} {members : List (String × Node)}

theorem headerMember_algorithm :
    headerMember d (some "alg", node) = .ok d' ↔ "alg" ∉ d.met ∧
      ∃ a, Json.Read.choice algorithms node = .ok a ∧ d' = ⟨"alg" :: d.met, some a⟩ := by
  unfold headerMember
  by_cases hmet : "alg" ∈ d.met
  · simp [hmet]
  · simp only [List.contains_eq_mem, hmet, decide_false, Bool.false_eq_true, if_false, if_true,
      not_false_eq_true, true_and]
    cases Json.Read.choice algorithms node with
    | error e => simp [bind, Except.bind]
    | ok a => simp [bind, Except.bind, pure, Except.pure, eq_comm]

/-- What is read is passed over. -/
theorem bind_pure_eq_ok_iff {α β : Type} {read : Except Json.Fault α} {b b' : β} :
    (do let _ ← read; return b) = .ok b' ↔ (∃ a, read = .ok a) ∧ b' = b := by
  rw [Json.Read.bind_eq_ok_iff]
  simp [pure, Except.pure, eq_comm]

/-- Any other member is taken for what it may be, and noted if it must not come again. -/
theorem headerMember_other (hname : name ≠ "alg") :
    headerMember d (some name, node) = .ok d' ↔ name ∉ d.met ∧ Admits name node ∧
      d' = { d with met := noted d.met name } := by
  unfold headerMember noted
  by_cases hmet : name ∈ d.met
  · simp [hmet]
  simp only [List.contains_eq_mem, hmet, decide_false, Bool.false_eq_true, if_false, hname,
    not_false_eq_true, true_and, decide_eq_true_eq]
  split
  · next htext =>
    rw [bind_pure_eq_ok_iff, admits_text_iff htext, if_pos (text_apart name htext).2.2.2]
  next htext =>
  split
  · next hlist =>
    rw [bind_pure_eq_ok_iff, admits_list_iff hlist, if_pos (list_apart name hlist).2.2.2]
  next hlist =>
  split
  · next hjwk =>
    subst hjwk
    rw [← admits_jwk_iff, if_pos jwk_apart.2.2]
    split
    · next hkey => simp [hkey, pure, Except.pure, eq_comm]
    · next hkey => simp [hkey]
  next hjwk =>
    have hextra : name ∉ knownMembers := by simp [knownMembers, hname, hjwk, htext, hlist]
    rw [bind_pure_eq_ok_iff, admits_extra_iff hextra, if_neg hextra]

/-- What is known of a member that was taken. -/
theorem headerMember_sound (h : headerMember d (some name, node) = .ok d') :
    name ∉ d.met ∧ Admits name node ∧ d'.met = noted d.met name ∧
      ∀ a, d'.algorithm = some a →
        d.algorithm = some a ∨ name = "alg" ∧ Json.Read.choice algorithms node = .ok a := by
  by_cases hname : name = "alg"
  · subst hname
    obtain ⟨hmet, a, hchoice, rfl⟩ := headerMember_algorithm.mp h
    obtain ⟨word, hword, -⟩ := Json.Read.choice_eq_ok_iff.mp hchoice
    refine ⟨hmet, .algorithm hword, rfl, ?_⟩
    intro b hb
    cases hb
    exact .inr ⟨rfl, hchoice⟩
  · obtain ⟨hmet, hadmits, rfl⟩ := (headerMember_other hname).mp h
    exact ⟨hmet, hadmits, rfl, fun a ha => .inl ha⟩

/-- A member that is admitted is taken, if it names a known algorithm in case it names one. -/
theorem headerMember_complete (hmet : name ∉ d.met) (hadmits : Admits name node)
    (halg : name = "alg" → ∃ a, Json.Read.choice algorithms node = .ok a) :
    ∃ d', headerMember d (some name, node) = .ok d' ∧ d'.met = noted d.met name ∧
      (name ≠ "alg" → d'.algorithm = d.algorithm) ∧
      ∀ a, name = "alg" → Json.Read.choice algorithms node = .ok a → d'.algorithm = some a := by
  by_cases hname : name = "alg"
  · obtain ⟨a, hchoice⟩ := halg hname
    subst hname
    refine ⟨_, headerMember_algorithm.mpr ⟨hmet, a, hchoice, rfl⟩, rfl,
      fun hne => absurd rfl hne, ?_⟩
    intro b _ hb
    rw [hchoice] at hb
    cases hb
    rfl
  · exact ⟨_, (headerMember_other hname).mpr ⟨hmet, hadmits, rfl⟩, rfl, fun _ => rfl,
      fun a he => absurd he hname⟩

/-! ## All members -/

/-- None of the members that must not come twice comes twice or has been met. -/
def Fresh (met : List String) (members : List (String × Node)) : Prop :=
  (knownNames members).Nodup ∧ ∀ name ∈ knownNames members, name ∉ met

theorem mem_noted_of_mem {met : List String} {n : String} (h : n ∈ met) : n ∈ noted met name := by
  unfold noted
  split
  · exact List.mem_cons_of_mem _ h
  · exact h

theorem mem_noted_self {met : List String} (h : name ∈ knownMembers) : name ∈ noted met name := by
  rw [noted, if_pos h]
  exact List.mem_cons_self

theorem noted_known {met : List String} (h : ∀ n ∈ met, n ∈ knownMembers) :
    ∀ n ∈ noted met name, n ∈ knownMembers := by
  unfold noted
  split
  · next hname => exact List.forall_mem_cons.mpr ⟨hname, h⟩
  · exact h

theorem fresh_cons_iff {met : List String} :
    Fresh met ((name, node) :: members) ↔
      (name ∈ knownMembers → name ∉ met) ∧ Fresh (noted met name) members := by
  unfold Fresh noted knownNames
  by_cases hknown : name ∈ knownMembers
  · simp only [List.map_cons, List.filter_cons, hknown, decide_true, if_true, List.nodup_cons,
      List.mem_cons, forall_eq_or_imp, forall_const, not_or]
    constructor
    · rintro ⟨⟨hname, hnodup⟩, hmet, hrest⟩
      exact ⟨hmet, hnodup, fun n hn => ⟨fun he => hname (he ▸ hn), hrest n hn⟩⟩
    · rintro ⟨hmet, hnodup, hrest⟩
      exact ⟨⟨fun hn => (hrest name hn).1 rfl, hnodup⟩, hmet, fun n hn => (hrest n hn).2⟩
  · simp [hknown]

/-- Members that were taken are admitted, and what they name was named. -/
theorem foldlM_headerMember_sound {ms : List (Option String × Node)}
    (h : ms.foldlM headerMember d = .ok d') :
    ∃ members, ms = named members ∧ (∀ m ∈ members, Admits m.1 m.2) ∧ Fresh d.met members ∧
      ∀ a, d'.algorithm = some a → d.algorithm = some a ∨
        ∃ value, ("alg", value) ∈ members ∧ Json.Read.choice algorithms value = .ok a := by
  induction ms generalizing d with
  | nil =>
    cases h
    exact ⟨[], rfl, by simp, ⟨List.nodup_nil, by simp [knownNames]⟩, fun a ha => .inl ha⟩
  | cons m ms ih =>
    obtain ⟨key, node⟩ := m
    rw [List.foldlM_cons] at h
    obtain ⟨d₁, hfirst, h⟩ := Json.Read.bind_eq_ok_iff.mp h
    obtain ⟨members, rfl, hadmits, hfresh, halg⟩ := ih h
    cases key with
    | none => cases hfirst
    | some name =>
      obtain ⟨hmet, hmember, hmet₁, halg₁⟩ := headerMember_sound hfirst
      refine ⟨(name, node) :: members, rfl, List.forall_mem_cons.mpr ⟨hmember, hadmits⟩,
        fresh_cons_iff.mpr ⟨fun _ => hmet, hmet₁ ▸ hfresh⟩, ?_⟩
      intro a ha
      rcases halg a ha with ha | ⟨value, hvalue, hchoice⟩
      · rcases halg₁ a ha with ha | ⟨rfl, hchoice⟩
        · exact .inl ha
        · exact .inr ⟨node, List.mem_cons_self, hchoice⟩
      · exact .inr ⟨value, List.mem_cons_of_mem _ hvalue, hchoice⟩

/-- Members that are admitted are taken. The algorithm is the one named, or was there before. -/
theorem foldlM_headerMember_complete (hmet : ∀ name ∈ d.met, name ∈ knownMembers)
    (hadmits : ∀ m ∈ members, Admits m.1 m.2) (hfresh : Fresh d.met members)
    (halg : ∀ value, ("alg", value) ∈ members → ∃ a, Json.Read.choice algorithms value = .ok a) :
    ∃ d', (named members).foldlM headerMember d = .ok d' ∧
      ∀ a, ("alg" ∈ d.met ∧ d.algorithm = some a ∨
        ∃ value, ("alg", value) ∈ members ∧ Json.Read.choice algorithms value = .ok a) →
          d'.algorithm = some a := by
  induction members generalizing d with
  | nil => exact ⟨d, rfl, by simp⟩
  | cons m members ih =>
    obtain ⟨name, node⟩ := m
    obtain ⟨hnew, hfresh⟩ := fresh_cons_iff.mp hfresh
    have hname : name ∉ d.met := fun hm => hnew (hmet name hm) hm
    obtain ⟨d₁, hfirst, hmet₁, hother, hnamed⟩ := headerMember_complete hname
      (hadmits _ List.mem_cons_self) fun he => halg node (he ▸ List.mem_cons_self)
    have hkeep : ∀ n ∈ d.met, n ∈ d₁.met := fun n hn => hmet₁ ▸ mem_noted_of_mem hn
    obtain ⟨d', hrest, hresult⟩ := ih (d := d₁) (hmet₁ ▸ noted_known hmet)
      (fun m hm => hadmits m (List.mem_cons_of_mem _ hm)) (hmet₁ ▸ hfresh)
      fun value hvalue => halg value (List.mem_cons_of_mem _ hvalue)
    refine ⟨d', ?_, fun a ha => hresult a ?_⟩
    · rw [named, List.map_cons, List.foldlM_cons, hfirst]
      exact hrest
    · rcases ha with ⟨halgMet, ha⟩ | ⟨value, hvalue, hchoice⟩
      · have hne : name ≠ "alg" := fun he => hname (he ▸ halgMet)
        exact .inl ⟨hkeep _ halgMet, (hother hne).trans ha⟩
      · rcases List.mem_cons.mp hvalue with heq | hvalue
        · obtain ⟨rfl, rfl⟩ := Prod.mk.inj heq
          exact .inl ⟨hmet₁ ▸ mem_noted_self (by decide), hnamed a rfl hchoice⟩
        · exact .inr ⟨value, hvalue, hchoice⟩

/-- A member with a meaning of its own has one value. -/
theorem eq_of_nodup_knownNames {value' : Node} (hnodup : (knownNames members).Nodup)
    (hknown : name ∈ knownMembers) (h : (name, value) ∈ members) (h' : (name, value') ∈ members) :
    value = value' := by
  rw [knownNames, List.filter_map] at hnodup
  have hinj := List.inj_on_of_nodup_map hnodup
  have hmem : ∀ v, (name, v) ∈ members →
      (name, v) ∈ members.filter ((fun n => decide (n ∈ knownMembers)) ∘ Prod.fst) := fun v hv =>
    List.mem_filter.mpr ⟨hv, by simpa using hknown⟩
  exact congrArg Prod.snd (hinj (hmem _ h) (hmem _ h') rfl)

/-- **Exactly the headers are read**, if they name a known algorithm. -/
theorem readHeader_eq_ok_iff :
    readHeader node = .ok a ↔ ∃ alg, IsHeader node alg ∧ algorithms.lookup alg = some a := by
  constructor
  · intro h
    unfold readHeader at h
    split at h
    · next ms closed =>
      obtain ⟨d, hfold, hwhole⟩ := Json.Read.bind_eq_ok_iff.mp h
      obtain ⟨members, rfl, hadmits, ⟨hnodup, -⟩, halg⟩ := foldlM_headerMember_sound hfold
      obtain ⟨rfl, hrequired⟩ := Json.Read.whole_eq_ok_iff.mp hwhole
      have ha : d.algorithm = some a := by
        cases hd : d.algorithm <;> simp_all [Json.Read.required]
      obtain hnone | ⟨value, hvalue, hchoice⟩ := halg a ha
      · cases hnone
      · obtain ⟨word, hword, hlookup⟩ := Json.Read.choice_eq_ok_iff.mp hchoice
        exact ⟨word, ⟨members, rfl, hadmits, hnodup, value, hvalue, hword⟩, hlookup⟩
    · exact absurd h (Json.Read.refuse_ne_ok _ a)
  · rintro ⟨alg, ⟨members, rfl, hadmits, hnodup, value, hvalue, hword⟩, hlookup⟩
    have hchoice : Json.Read.choice algorithms value = .ok a :=
      Json.Read.choice_eq_ok_iff.mpr ⟨alg, hword, hlookup⟩
    obtain ⟨d, hfold, hd⟩ := foldlM_headerMember_complete (d := {}) (by simp) hadmits
      ⟨hnodup, by simp⟩ fun value' hvalue' =>
        ⟨a, eq_of_nodup_knownNames hnodup (by decide) hvalue hvalue' ▸ hchoice⟩
    rw [readHeader, hfold]
    simp [bind, Except.bind, hd a (.inr ⟨value, hvalue, hchoice⟩), Json.Read.required]

end Gatehouse.Token
