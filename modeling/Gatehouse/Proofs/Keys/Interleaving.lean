import Gatehouse.Proofs.Keys.Workload
import Mathlib.Data.List.Pairwise

/-!
What calls in flight can do to each other. A call asks for an id, reads a record or deletes one in
steps of their own, without a lock, and anything may come between. Since no id is given out twice,
still nothing is stored twice; what is stored is never changed; and a record goes only by its
owner's will or because whoever deletes it has found it expired (`Workload.orderly_of_fresh_ids`).
The argument is the same throughout: the log of the workload up to some point says what a call has
done so far, and the courses that the call can take say what that means.
-/

namespace Gatehouse

open KeyService (Result recordOf)
open Plan (Exec)

/-! ## The vault by the log -/

namespace Exchange

/-- The place at which a record was stored. -/
def saved? : Exchange → Option (String × String)
  | save key (.ok _) => some (key.issuer, key.id)
  | _ => none

/-- The place that was cleared. -/
def removed? : Exchange → Option (String × String)
  | remove issuer id (.ok _) => some (issuer, id)
  | _ => none

variable {x : Exchange} {place : String × String}

theorem saved?_eq_some_iff :
    x.saved? = some place ↔ ∃ key id, x = .save key (.ok id) ∧ (key.issuer, key.id) = place := by
  unfold saved?
  split
  · simp
  · next hother => simpa using fun key id hx => absurd hx (hother key id)

theorem removed?_eq_some_iff :
    x.removed? = some place ↔ x = .remove place.1 place.2 (.ok ()) := by
  unfold removed?
  split
  · simp [Prod.ext_iff]
  · next hother => simpa using fun hx => hother _ _ _ hx

theorem get?_onVault_of_ne {v : Vault} (hsaved : x.saved? ≠ some place)
    (hremoved : x.removed? ≠ some place) : (onVault v x).get? place = v.get? place := by
  unfold onVault
  split
  · rw [Table.get?_insert, if_neg fun h => hsaved (by rw [h]; rfl)]
  · rw [Table.get?_erase, if_neg fun h => hremoved (by rw [h]; rfl)]
  · rfl

end Exchange

namespace Log

variable {log later earlier : Log} {place : String × String} {key : Key}

/-- What is in the vault was put there, and not taken out since. -/
theorem exists_save_of_get? (h : log.vault.get? place = some key) :
    ∃ later i id earlier, log = later ++ (i, .save key (.ok id)) :: earlier ∧
      (key.issuer, key.id) = place ∧ ∀ e ∈ later, e.2.removed? ≠ some place := by
  induction log with
  | nil => cases h
  | cons e log ih =>
    obtain ⟨i, x⟩ := e
    by_cases hsaved : x.saved? = some place
    · obtain ⟨stored, id, rfl, rfl⟩ := Exchange.saved?_eq_some_iff.mp hsaved
      have hkey : some stored = some key :=
        (Table.get?_insert_self (vault log) (stored.issuer, stored.id) stored).symm.trans h
      cases hkey
      exact ⟨[], i, id, log, rfl, rfl, by simp⟩
    · by_cases hremoved : x.removed? = some place
      · rw [Exchange.removed?_eq_some_iff] at hremoved
        subst hremoved
        cases (Table.get?_erase_self (vault log) place).symm.trans h
      · obtain ⟨later, j, id, earlier, rfl, hplace, hkept⟩ :=
          ih ((Exchange.get?_onVault_of_ne hsaved hremoved).symm.trans h)
        refine ⟨(i, x) :: later, j, id, earlier, rfl, hplace, fun e he => ?_⟩
        rcases List.mem_cons.mp he with rfl | he
        · exact hremoved
        · exact hkept e he

/-- What was put into the vault stays as it is until it is overwritten or taken out. -/
theorem get?_of_save {i : Nat} {id : String}
    (hsaved : ∀ e ∈ later, e.2.saved? ≠ some (key.issuer, key.id))
    (hremoved : ∀ e ∈ later, e.2.removed? ≠ some (key.issuer, key.id)) :
    (vault (later ++ (i, .save key (.ok id)) :: earlier)).get? (key.issuer, key.id) = some key := by
  induction later with
  | nil => exact Table.get?_insert_self _ _ _
  | cons e later ih =>
    have hkept := Exchange.get?_onVault_of_ne (v := vault (later ++ (i, .save key (.ok id)) ::
      earlier)) (hsaved e List.mem_cons_self) (hremoved e List.mem_cons_self)
    exact hkept.trans (ih (fun e he => hsaved e (List.mem_cons_of_mem _ he))
      fun e he => hremoved e (List.mem_cons_of_mem _ he))

/-- Two entries of which the same is listed, in a list that names nothing twice, are one. -/
theorem eq_of_nodup_filterMap {α : Type} {f : Nat × Exchange → Option α} {a : α}
    (h : (log.filterMap f).Nodup) {e e' : Nat × Exchange} (he : e ∈ log) (he' : e' ∈ log)
    (ha : f e = some a) (ha' : f e' = some a) : e = e' := by
  let Apart (e e' : Nat × Exchange) : Prop := ∀ b, f e = some b → ∀ b', f e' = some b' → b ≠ b'
  have hapart : log.Pairwise Apart := List.pairwise_filterMap.mp h
  have hsymm : Std.Symm Apart := ⟨fun _ _ h b hb b' hb' hbb => h b' hb' b hb hbb.symm⟩
  by_contra hne
  exact hapart.forall he he' hne a ha a ha' rfl

end Log

/-! ## What the log says about the calls -/

namespace Underway

/-- The call revokes a key with a login key of this owner. -/
def Revokes (s : KeyService) (owner id : String) (c : Underway) : Prop :=
  ∃ token, c.call = .revoke token id ∧ IsLogin s.secret c.time token owner

/-- The call looks a key up, by its token or for its owner. -/
def Uses (s : KeyService) (owner id : String) (c : Underway) : Prop :=
  Entry.Uses s owner id ⟨c.time, c.call, none⟩

/-- Whichever way the call goes on, it answers, and this is what it answers. -/
def Answers (c : Underway) (P : Result Reply → Prop) : Prop :=
  ∀ rest answer, Exec c.rest rest answer → ∃ a, answer = some a ∧ P a

theorem uses_of_entry {s : KeyService} {owner id : String} {c : Underway}
    {answer : Option (Result Reply)} (h : Entry.Uses s owner id ⟨c.time, c.call, answer⟩) :
    c.Uses s owner id := by
  obtain ⟨time, call, rest⟩ := c
  cases call <;> exact h

theorem Revokes.not_uses {s : KeyService} {owner id : String} {c : Underway}
    (h : c.Revokes s owner id) : ¬ c.Uses s owner id := by
  obtain ⟨token, hcall, -⟩ := h
  rw [Uses, hcall]
  exact not_false

end Underway

/-- A rejection because the key has expired. -/
def IsKeyExpired (answer : Result Reply) : Prop :=
  ∃ f, answer = .error f ∧ f.denyReason? = some .keyExpired

namespace Workload.Traced

variable {s : KeyService} {ids : List String} {w : Workload} {later earlier : Log} {i j : Nat}

/-- The course of a call, cut where something passes. -/
theorem course_at (hw : w.Traced s ids) {x : Exchange}
    (hlog : w.log = later ++ (i, x) :: earlier) :
    ∃ c, w.calls[i]? = some c ∧ ∀ rest answer, Exec c.rest rest answer →
      Entry.Course s ⟨c.time, c.call, answer⟩
        (earlier.own i ++ x :: (later.own i ++ rest)) := by
  have hi := hw.numbered (i, x) (by simp [hlog])
  refine ⟨_, List.getElem?_eq_getElem hi, fun rest answer hrest => ?_⟩
  have hcourse := hw.course (List.getElem?_eq_getElem hi) hrest
  rw [hlog, Log.own_append, Log.own_cons_self] at hcourse
  simpa using hcourse

theorem truthful_at (hw : w.Traced s ids) {x : Exchange}
    (hlog : w.log = later ++ (i, x) :: earlier) : x.Truthful earlier.vault := by
  have htruthful := hw.truthful
  rw [hlog] at htruthful
  exact htruthful.of_append.1

theorem own_of_save (hw : w.Traced s ids) {record : Key} {answer : Except Failure String}
    (hlog : w.log = later ++ (i, .save record answer) :: earlier) :
    earlier.own i = [.freshId (.ok record.id)] := by
  obtain ⟨c, -, hcourse⟩ := hw.course_at hlog
  obtain ⟨rest, result, hrest⟩ := c.rest.exists_exec
  exact (hcourse rest result hrest).of_save.1

/-- An id is given to one call only. -/
theorem number_eq_of_freshId (hw : w.Traced s ids) (hids : ids.Nodup) {id : String}
    (hi : (i, .freshId (.ok id)) ∈ w.log) (hj : (j, .freshId (.ok id)) ∈ w.log) : i = j := by
  have hnodup : w.log.freshIds.Nodup := by
    rw [← hw.fresh] at hids
    exact (List.nodup_append.mp hids).1
  have hsame := Log.eq_of_nodup_filterMap hnodup (List.mem_reverse.mpr hi) (List.mem_reverse.mpr hj)
    rfl rfl
  exact (Prod.mk.inj hsame).1

/-- No two records are stored under one id. -/
theorem id_ne_of_save (hw : w.Traced s ids) (hids : ids.Nodup) {record record' : Key}
    {answer answer' : Except Failure String}
    (hlog : w.log = later ++ (i, .save record answer) :: earlier)
    (hmem : (j, .save record' answer') ∈ earlier) : record'.id ≠ record.id := by
  intro hid
  obtain ⟨between, before, rfl⟩ := List.append_of_mem hmem
  have hown := hw.own_of_save hlog
  have hlog' : w.log = (later ++ (i, .save record answer) :: between) ++
      (j, .save record' answer') :: before := by simp [hlog]
  have hown' := hw.own_of_save hlog'
  have hfresh : (i, .freshId (.ok record.id)) ∈ w.log := by
    have hi := Log.mem_own.mp (hown ▸ List.mem_singleton_self _)
    rw [hlog]
    exact List.mem_append_right _ (List.mem_cons_of_mem _ hi)
  have hfresh' : (j, .freshId (.ok record.id)) ∈ w.log := by
    have hj := Log.mem_own.mp (hown' ▸ List.mem_singleton_self _)
    rw [hid] at hj
    simp [hlog, hj]
  -- so the two are one call, which has saved before and yet has only got its id
  obtain rfl := hw.number_eq_of_freshId hids hfresh hfresh'
  have hsaved := Log.mem_own.mpr hmem
  rw [hown] at hsaved
  simp at hsaved

theorem nodup_saved (hw : w.Traced s ids) (hids : ids.Nodup) :
    (w.log.filterMap fun e => e.2.saved?).Nodup := by
  have hsuffix : ∀ earlier later : Log, w.log = later ++ earlier →
      (earlier.filterMap fun e => e.2.saved?).Nodup := by
    intro earlier
    induction earlier with
    | nil => simp
    | cons e earlier ih =>
      intro later hlog
      have hrest := ih (later ++ [e]) (by simp [hlog])
      obtain ⟨i, x⟩ := e
      rw [List.filterMap_cons]
      split
      · exact hrest
      · next place hsaved =>
        refine List.nodup_cons.mpr ⟨fun hmem => ?_, hrest⟩
        obtain ⟨⟨j, y⟩, hy, hsaved'⟩ := List.mem_filterMap.mp hmem
        obtain ⟨record, id, rfl, rfl⟩ := Exchange.saved?_eq_some_iff.mp hsaved
        obtain ⟨record', id', rfl, hplace⟩ := Exchange.saved?_eq_some_iff.mp hsaved'
        exact hw.id_ne_of_save hids hlog hy (Prod.mk.inj hplace).2
  exact hsuffix w.log [] rfl

/-- A record that is to be stored meets no conflict. -/
theorem answer_of_save (hw : w.Traced s ids) (hids : ids.Nodup) {record : Key}
    {answer : Except Failure String}
    (hlog : w.log = later ++ (i, .save record answer) :: earlier) : answer = .ok record.id := by
  have htrue : answer = (earlier.vault.save record).1 := hw.truthful_at hlog
  rw [htrue, Vault.save]
  split
  · next htaken =>
    obtain ⟨other, hother⟩ := Option.isSome_iff_exists.mp htaken
    obtain ⟨between, j, id, before, rfl, hplace, -⟩ := Log.exists_save_of_get? hother
    have hmem : (j, .save other (.ok id)) ∈ between ++ (j, .save other (.ok id)) :: before :=
      List.mem_append_right _ List.mem_cons_self
    exact absurd (Prod.mk.inj hplace).2 (hw.id_ne_of_save hids hlog hmem)
  · rfl

theorem get?_iff (hw : w.Traced s ids) (hids : ids.Nodup) {owner id : String} {record : Key} :
    w.backend.vault.get? (owner, id) = some record ↔
      ∃ later i earlier, w.log = later ++ (i, .save record (.ok id)) :: earlier ∧
        record.issuer = owner ∧ record.id = id ∧
        ∀ e ∈ later, e.2.removed? ≠ some (owner, id) := by
  rw [hw.vault]
  constructor
  · intro h
    obtain ⟨later, i, saved, earlier, hlog, hplace, hkept⟩ := Log.exists_save_of_get? h
    obtain ⟨rfl, rfl⟩ := Prod.mk.inj hplace
    cases hw.answer_of_save hids hlog
    exact ⟨later, i, earlier, hlog, rfl, rfl, hkept⟩
  · rintro ⟨later, i, earlier, hlog, rfl, rfl, hkept⟩
    rw [hlog]
    refine Log.get?_of_save (fun e he hsaved => ?_) hkept
    have hnodup := hw.nodup_saved hids
    rw [hlog, List.filterMap_append, List.nodup_append] at hnodup
    exact hnodup.2.2 _ (List.mem_filterMap.mpr ⟨e, he, hsaved⟩) _
      (List.mem_filterMap.mpr ⟨_, List.mem_cons_self, rfl⟩) rfl

theorem record_eq (hw : w.Traced s ids) (hids : ids.Nodup) {record record' : Key} {id id' : String}
    (hi : (i, .save record (.ok id)) ∈ w.log) (hj : (j, .save record' (.ok id')) ∈ w.log)
    (hissuer : record'.issuer = record.issuer) (hid : record'.id = record.id) :
    record' = record := by
  have hplace : (record'.issuer, record'.id) = (record.issuer, record.id) := by rw [hissuer, hid]
  have hsame := Log.eq_of_nodup_filterMap (hw.nodup_saved hids) hj hi rfl (by rw [hplace]; rfl)
  cases hsame
  rfl

theorem saved_of_retrieve (hw : w.Traced s ids) {owner id : String} {record : Key}
    (hlog : w.log = later ++ (i, .retrieve owner id (.ok record)) :: earlier) :
    record.issuer = owner ∧ record.id = id ∧
      ∃ j saved, (j, .save record (.ok saved)) ∈ earlier := by
  have htrue : .ok record = earlier.vault.retrieve owner id := hw.truthful_at hlog
  rw [Vault.retrieve] at htrue
  split at htrue
  · next found hfound =>
    cases htrue
    obtain ⟨between, j, saved, before, rfl, hplace, -⟩ := Log.exists_save_of_get? hfound
    obtain ⟨hissuer, hid⟩ := Prod.mk.inj hplace
    exact ⟨hissuer, hid, j, saved, by simp⟩
  · cases htrue

theorem removal (hw : w.Traced s ids) {owner id : String} {answer : Except Failure Unit}
    (hlog : w.log = later ++ (i, .remove owner id answer) :: earlier) :
    answer = .ok () ∧ ∃ c, w.calls[i]? = some c ∧
      (c.Revokes s owner id ∧ c.Answers (· = .ok .revoked) ∨
        c.Uses s owner id ∧ c.Answers IsKeyExpired ∧
          ∃ record, (i, .retrieve owner id (.ok record)) ∈ earlier ∧
            record.isExpiredAt c.time = true) := by
  have hok : answer = .ok () := hw.truthful_at hlog
  obtain ⟨c, hc, hcourse⟩ := hw.course_at hlog
  refine ⟨hok, c, hc, ?_⟩
  obtain ⟨rest, result, hrest⟩ := c.rest.exists_exec
  rcases (hcourse rest result hrest).of_remove with
    ⟨-, token, hcall, hlogin, -⟩ | ⟨record, f, hread, huse, hexpired, -⟩
  · have hrevokes : c.Revokes s owner id := ⟨token, hcall, hlogin⟩
    refine .inl ⟨hrevokes, fun rest' result' hrest' => ?_⟩
    rcases (hcourse rest' result' hrest').of_remove with
      ⟨-, -, -, -, hanswer⟩ | ⟨-, -, -, huse, -⟩
    · exact ⟨_, hanswer hok, rfl⟩
    · exact absurd (Underway.uses_of_entry huse) hrevokes.not_uses
  · have hmem : (i, .retrieve owner id (.ok record)) ∈ earlier :=
      Log.mem_own.mp (hread ▸ List.mem_singleton_self _)
    refine .inr ⟨Underway.uses_of_entry huse, fun rest' result' hrest' => ?_, record, hmem,
      hexpired⟩
    rcases (hcourse rest' result' hrest').of_remove with
      ⟨hnone, -⟩ | ⟨-, f, -, -, -, hanswer, hreason⟩
    · cases hread.symm.trans hnone
    · exact ⟨_, hanswer, f, rfl, hreason⟩

theorem kept_or_removed (hw : w.Traced s ids) (hids : ids.Nodup) {record : Key} {id : String}
    (hsaved : (i, .save record (.ok id)) ∈ w.log) :
    w.backend.vault.get? (record.issuer, record.id) = some record ∨
      ∃ later j earlier c,
        w.log = later ++ (j, .remove record.issuer record.id (.ok ())) :: earlier ∧
        (i, .save record (.ok id)) ∈ earlier ∧ w.calls[j]? = some c ∧
        (c.Revokes s record.issuer record.id ∨ c.Uses s record.issuer record.id ∧
          (j, .retrieve record.issuer record.id (.ok record)) ∈ earlier ∧
            record.isExpiredAt c.time = true) := by
  obtain ⟨later, earlier, hlog⟩ := List.append_of_mem hsaved
  by_cases hkept : ∀ e ∈ later, e.2.removed? ≠ some (record.issuer, record.id)
  · refine .inl ((hw.get?_iff hids).mpr ⟨later, i, earlier, ?_, rfl, rfl, hkept⟩)
    rw [hlog, Except.ok.inj (hw.answer_of_save hids hlog)]
  · obtain ⟨j, x, hx, hremoved⟩ : ∃ j x, (j, x) ∈ later ∧
        x.removed? = some (record.issuer, record.id) := by simpa using hkept
    rw [Exchange.removed?_eq_some_iff] at hremoved
    subst hremoved
    obtain ⟨after, between, rfl⟩ := List.append_of_mem hx
    let before : Log := between ++ (i, .save record (.ok id)) :: earlier
    have hcut : w.log = after ++ (j, .remove record.issuer record.id (.ok ())) :: before := by
      simp [hlog, before]
    have hstored : (i, .save record (.ok id)) ∈ before := by simp [before]
    obtain ⟨-, c, hc, ⟨hrevokes, -⟩ | ⟨huse, -, found, hread, hexpired⟩⟩ := hw.removal hcut
    · exact .inr ⟨after, j, before, c, hcut, hstored, hc, .inl hrevokes⟩
    · -- what it has read is the one record that was ever stored there
      obtain ⟨behind, ahead, hbefore⟩ := List.append_of_mem hread
      have hlook : w.log = (after ++ (j, .remove record.issuer record.id (.ok ())) :: behind) ++
          (j, .retrieve record.issuer record.id (.ok found)) :: ahead := by
        rw [hcut, hbefore]
        simp
      obtain ⟨hissuer, hid, k, saved, hmem⟩ := hw.saved_of_retrieve hlook
      have hmem' : (k, .save found (.ok saved)) ∈ w.log := by
        rw [hlook]
        simp [hmem]
      obtain rfl := hw.record_eq hids hsaved hmem' hissuer hid
      exact .inr ⟨after, j, before, c, hcut, hstored, hc, .inr ⟨huse, hread, hexpired⟩⟩

theorem not_notified (hw : w.Traced s ids) {notice : Notice} : (i, .notify notice) ∉ w.log := by
  intro hmem
  obtain ⟨later, earlier, hlog⟩ := List.append_of_mem hmem
  obtain ⟨c, -, hcourse⟩ := hw.course_at hlog
  obtain ⟨rest, result, hrest⟩ := c.rest.exists_exec
  obtain ⟨owner, id, cause, hremoved⟩ := (hcourse rest result hrest).of_notify
  obtain ⟨between, before, rfl⟩ := List.append_of_mem (Log.mem_own.mp hremoved)
  have hcut : w.log = (later ++ (i, .notify notice) :: between) ++
      (i, .remove owner id (.error cause)) :: before := by simp [hlog]
  cases (hw.removal hcut).1

theorem saved_of_issued (hw : w.Traced s ids) (hids : ids.Nodup) {c : Underway} {key : Key}
    (hc : w.calls[i]? = some c) (hdone : c.rest = .done (.ok (.issued key)))
    (hkind : key.kind = .user) : (i, .save (recordOf key) (.ok key.id)) ∈ w.log := by
  have hcourse := hw.course hc (hdone ▸ Exec.done _)
  obtain ⟨saved, hmem⟩ := hcourse.save_mem rfl hkind
  rw [List.append_nil, Log.mem_own] at hmem
  obtain ⟨later, earlier, hlog⟩ := List.append_of_mem hmem
  cases hw.answer_of_save hids hlog
  exact hmem

theorem issued_of_saved (hw : w.Traced s ids) (hids : ids.Nodup) {record : Key}
    {answer : Except Failure String} (hmem : (i, .save record answer) ∈ w.log) :
    answer = .ok record.id ∧ ∃ c key, w.calls[i]? = some c ∧ record = recordOf key ∧
      c.Answers (· = .ok (.issued key)) := by
  obtain ⟨later, earlier, hlog⟩ := List.append_of_mem hmem
  have hok := hw.answer_of_save hids hlog
  obtain ⟨c, hc, hcourse⟩ := hw.course_at hlog
  obtain ⟨rest, result, hrest⟩ := c.rest.exists_exec
  obtain ⟨-, token, request, hcall, -, hrecord, -⟩ := (hcourse rest result hrest).of_save
  refine ⟨hok, c, _, hc, hrecord, fun rest' result' hrest' => ?_⟩
  obtain ⟨-, token', request', hcall', -, -, hanswer⟩ := (hcourse rest' result' hrest').of_save
  cases hcall.symm.trans hcall'
  exact ⟨_, hanswer hok, rfl⟩

end Workload.Traced

namespace Workload

/-- However the calls come between each other, the store stays in order. -/
structure Orderly (s : KeyService) (w : Workload) : Prop where
  /-- Nothing is stored twice under one issuer and id. -/
  saved_once : (w.log.filterMap fun e => e.2.saved?).Nodup
  /-- What was stored is there, and unchanged, until it is deleted; nothing else is there. -/
  stored : ∀ owner id record, w.backend.vault.get? (owner, id) = some record ↔
    ∃ later i earlier, w.log = later ++ (i, .save record (.ok id)) :: earlier ∧
      record.issuer = owner ∧ record.id = id ∧ ∀ e ∈ later, e.2.removed? ≠ some (owner, id)
  /-- A record that has gone was revoked by its issuer, or it was deleted by a call that uses the
  key and has read that very record, expired. -/
  kept_or_removed : ∀ i record id, (i, .save record (.ok id)) ∈ w.log →
    w.backend.vault.get? (record.issuer, record.id) = some record ∨
      ∃ later j earlier c,
        w.log = later ++ (j, .remove record.issuer record.id (.ok ())) :: earlier ∧
        (i, .save record (.ok id)) ∈ earlier ∧ w.calls[j]? = some c ∧
        (c.Revokes s record.issuer record.id ∨ c.Uses s record.issuer record.id ∧
          (j, .retrieve record.issuer record.id (.ok record)) ∈ earlier ∧
            record.isExpiredAt c.time = true)
  /-- Every deletion goes well, whether there is still something to delete or not, and makes no
  difference to what the call answers. -/
  removal : ∀ later i owner id answer earlier,
    w.log = later ++ (i, .remove owner id answer) :: earlier →
      answer = .ok () ∧ ∃ c, w.calls[i]? = some c ∧
        (c.Revokes s owner id ∧ c.Answers (· = .ok .revoked) ∨
          c.Uses s owner id ∧ c.Answers IsKeyExpired ∧
            ∃ record, (i, .retrieve owner id (.ok record)) ∈ earlier ∧
              record.isExpiredAt c.time = true)
  /-- The operator is told nothing. -/
  not_notified : ∀ i notice, (i, .notify notice) ∉ w.log
  /-- Every user key that was issued has been stored. -/
  saved_of_issued : ∀ i c key, w.calls[i]? = some c → c.rest = .done (.ok (.issued key)) →
    key.kind = .user → (i, .save (recordOf key) (.ok key.id)) ∈ w.log
  /-- Whatever was to be stored has been stored, and its key is issued. -/
  issued_of_saved : ∀ i record answer, (i, .save record answer) ∈ w.log →
    answer = .ok record.id ∧ ∃ c key, w.calls[i]? = some c ∧ record = recordOf key ∧
      c.Answers (· = .ok (.issued key))

/-- **No live key is lost between calls.** Any number of calls begin at any time and make their
steps in any order, over a store without outages and a source that gives no id twice. Then at every
moment each record has been stored once, and is there as it was stored, unless its issuer has
revoked it, or somebody has found it expired; that two calls find this out at once is no failure to
either of them, and touches no other record. -/
theorem orderly_of_fresh_ids (s : KeyService) {ids : List (Except Failure String)}
    (hids : (ids.filterMap Except.toOption).Nodup) (turns : List Turn) :
    ((start ids).run s turns).Orderly s := by
  have hw : ((start ids).run s turns).Traced s _ := (traced_start ids).run turns
  exact {
    saved_once := hw.nodup_saved hids
    stored := fun owner id record => hw.get?_iff hids
    kept_or_removed := fun i record id hsaved => hw.kept_or_removed hids hsaved
    removal := fun later i owner id answer earlier hlog => hw.removal hlog
    not_notified := fun i notice => hw.not_notified
    saved_of_issued := fun i c key hc hdone hkind => hw.saved_of_issued hids hc hdone hkind
    issued_of_saved := fun i record answer hmem => hw.issued_of_saved hids hmem }

/-! ## Two readers of one record -/

/-- A request for a key that expires in the two hundredth second. -/
def expiring : Key := ⟨"", .user, "", "", ⟨100, 5, by decide⟩, some ⟨200, 7, by decide⟩⟩

/-- The key is issued. Later one call looks it up by its token and another by its id, and both read
the record before either of them deletes it. -/
def twoReaders (session token : String) : List Turn := [
  .start ⟨100, 9, by decide⟩ (.issue session expiring), .advance 0, .advance 0, .advance 0,
  .start ⟨200, 8, by decide⟩ (.identify token), .start ⟨200, 9, by decide⟩ (.retrieve session "k1"),
  .advance 1, .advance 2, .advance 1, .advance 2]

/-- What passes then. -/
def twoDeletions (record : Key) : Log := [
  (2, .remove "alice" "k1" (.ok ())), (1, .remove "alice" "k1" (.ok ())),
  (2, .retrieve "alice" "k1" (.ok record)), (1, .retrieve "alice" "k1" (.ok record)),
  (0, .record (.issued "alice" "k1" .user)), (0, .save record (.ok "k1")),
  (0, .freshId (.ok "k1"))]

variable {s : KeyService} {session token : String}

theorem log_twoReaders
    (hissuing : ∀ op, s.login ⟨100, 9, by decide⟩ op session = .done (.ok "alice"))
    (husing : s.identify ⟨200, 8, by decide⟩ token =
      KeyService.identifyClaims ⟨200, 8, by decide⟩ "identify"
        (KeyService.userClaims "alice" "k1" expiring.issuedAt expiring.expiresAt))
    (hreading : ∀ op, s.login ⟨200, 9, by decide⟩ op session = .done (.ok "alice")) :
    ((start [.ok "k1"]).run s (twoReaders session token)).log =
      twoDeletions (recordOf (s.userKeyOf "alice" "k1" expiring)) := by
  have hnanos : ¬ expiring.issuedAt.nanos = 0 := by decide
  have hrequest : expiring.kind = .user := rfl
  have hkind : (s.userKeyOf "alice" "k1" expiring).kind = .user := rfl
  have hissuer : (recordOf (s.userKeyOf "alice" "k1" expiring)).issuer = "alice" := rfl
  have hid : (recordOf (s.userKeyOf "alice" "k1" expiring)).id = "k1" := rfl
  have hfirst : (recordOf (s.userKeyOf "alice" "k1" expiring)).isExpiredAt
      ⟨200, 8, by decide⟩ = true := by
    show expiring.isExpiredAt _ = true
    decide
  have hsecond : (recordOf (s.userKeyOf "alice" "k1" expiring)).isExpiredAt
      ⟨200, 9, by decide⟩ = true := by
    show expiring.isExpiredAt _ = true
    decide
  simp [twoReaders, twoDeletions, run, start, step, Call.plan, Call.replying, KeyService.issue,
    KeyService.userKey, KeyService.retrieve, KeyService.identifyClaims, KeyService.userClaims,
    KeyService.removeExpired, hnanos, hrequest, hkind, hissuer, hid, hfirst, hsecond, hissuing,
    husing, hreading, Plan.bind, Plan.advance?, Plan.Backend.freshId, Plan.Backend.save,
    Plan.Backend.retrieve, Plan.Backend.remove, Plan.Outage.answer, Vault.save, Vault.retrieve,
    Vault.remove, Table.contains]

/-- Both delete the record, and both answer that the key has expired. -/
theorem Orderly.twoDeletions {w : Workload} {record : Key} (hw : w.Orderly s)
    (hcalls : w.calls.map (fun c => (c.time, c.call)) =
      (twoReaders session token).filterMap Turn.started?)
    (hlog : w.log = Workload.twoDeletions record) :
    w.backend.vault.get? ("alice", "k1") = none ∧ ∀ i ∈ [1, 2],
      (i, .remove "alice" "k1" (.ok ())) ∈ w.log ∧ ∃ c, w.calls[i]? = some c ∧
        c.Answers IsKeyExpired := by
  refine ⟨?_, fun i hi => ?_⟩
  · -- the latest thing that has passed is a deletion
    cases hget : w.backend.vault.get? ("alice", "k1") with
    | none => rfl
    | some record =>
      obtain ⟨later, i, earlier, hcut, -, -, hkept⟩ := (hw.stored _ _ _).mp hget
      rw [hlog] at hcut
      cases later with
      | nil => cases hcut
      | cons e later =>
        obtain ⟨rfl, -⟩ := List.cons.inj hcut
        exact absurd rfl (hkept _ List.mem_cons_self)
  · have htwo : i = 1 ∨ i = 2 := by simpa using hi
    obtain ⟨later, earlier, hcut⟩ : ∃ later earlier : Log,
        w.log = later ++ (i, .remove "alice" "k1" (.ok ())) :: earlier := by
      rcases htwo with rfl | rfl
      · exact ⟨[_], _, hlog⟩
      · exact ⟨[], _, hlog⟩
    obtain ⟨-, c, hc, ⟨⟨token', hcall, -⟩, -⟩ | ⟨-, hanswer, -⟩⟩ := hw.removal _ _ _ _ _ _ hcut
    · -- neither of them is a revocation
      have hstarted := congrArg (·[i]?) hcalls
      simp only [List.getElem?_map, hc, Option.map_some, hcall] at hstarted
      rcases htwo with rfl | rfl
      · have hidentify : (c.time, Call.revoke token' "k1") = (_, Call.identify token) :=
          Option.some.inj hstarted
        cases (Prod.mk.inj hidentify).2
      · have hretrieve : (c.time, Call.revoke token' "k1") = (_, Call.retrieve session "k1") :=
          Option.some.inj hstarted
        cases (Prod.mk.inj hretrieve).2
    · exact ⟨by simp [hcut], c, hc, hanswer⟩

/-- A store with one id to give: the key under it is found expired by two calls at once. -/
theorem both_readers_find_it_expired :
    let s := KeyService.standard "secret"
    let session := Token.issue s.secret
      (s.sessionClaims "alice" ⟨"", .login, "", "", ⟨50, 1, by decide⟩, none⟩ ⟨36050, 0, by decide⟩)
    let w := (start [.ok "k1"]).run s
      (twoReaders session (s.userKeyOf "alice" "k1" expiring).secret)
    w.backend.vault.get? ("alice", "k1") = none ∧ ∀ i ∈ [1, 2],
      (i, .remove "alice" "k1" (.ok ())) ∈ w.log ∧ ∃ c, w.calls[i]? = some c ∧
        c.Answers IsKeyExpired := by
  intro s session w
  have hissuing : ∀ op, s.login ⟨100, 9, by decide⟩ op session = .done (.ok "alice") := fun op =>
    KeyService.login_of_isLogin op
      ⟨_, Token.carries_issue s.secret ⟨by decide, by decide⟩, rfl, rfl, rfl, by decide⟩
  have hreading : ∀ op, s.login ⟨200, 9, by decide⟩ op session = .done (.ok "alice") := fun op =>
    KeyService.login_of_isLogin op
      ⟨_, Token.carries_issue s.secret ⟨by decide, by decide⟩, rfl, rfl, rfl, by decide⟩
  have husing : s.identify ⟨200, 8, by decide⟩ (s.userKeyOf "alice" "k1" expiring).secret =
      KeyService.identifyClaims ⟨200, 8, by decide⟩ "identify"
        (KeyService.userClaims "alice" "k1" expiring.issuedAt expiring.expiresAt) :=
    KeyService.identify_of_carries (Token.carries_issue s.secret ⟨by decide, by decide⟩) rfl
  have hids : (([.ok "k1"] : List (Except Failure String)).filterMap Except.toOption).Nodup := by
    decide
  have hw : w.Orderly s := orderly_of_fresh_ids s hids _
  have hcalls := (calls_run s (start [.ok "k1"])
    (twoReaders session (s.userKeyOf "alice" "k1" expiring).secret)).trans (List.nil_append _)
  have hlog : w.log = _ := log_twoReaders hissuing husing hreading
  exact hw.twoDeletions hcalls hlog

end Workload
end Gatehouse
