import Gatehouse.Proofs.Keys.Vault

/-!
Calls in flight together. Each call is a plan under way; what a plan asks of its collaborators is
one atomic step, and the steps of any number of calls come in any order (`Workload.step`); a call
that nothing comes between does what it does alone (`Workload.run_alone`). A workload keeps a log
of what has passed, and the log tells everything else: the vault is what the log left in it, every
answer in the log was true when it was given, and each call has gone as far as its own part of the
log says (`Workload.Traced`).
-/

namespace Gatehouse

open KeyService (Result)
open Plan (Exec)

/-! ## One step of a plan -/

namespace Exchange

/-- The id that was given out. -/
def freshId? : Exchange → Option String
  | freshId (.ok id) => some id
  | _ => none

end Exchange

namespace Plan

variable {α : Type}

/-- The first thing that a plan asks and the answer of the backend, and how both go on. Nothing, if
the plan has come to its end. -/
def advance? : Plan α → Backend → Option (Exchange × Plan α × Backend)
  | done _, _ => none
  | crash, _ => none
  | save key next, b => some (.save key (b.save key).1, next (b.save key).1, (b.save key).2)
  | retrieve issuer id next, b =>
    some (.retrieve issuer id (b.retrieve issuer id), next (b.retrieve issuer id), b)
  | remove issuer id next, b =>
    some (.remove issuer id (b.remove issuer id).1, next (b.remove issuer id).1,
      (b.remove issuer id).2)
  | freshId next, b => some (.freshId b.freshId.1, next b.freshId.1, b.freshId.2)
  | record event next, b => some (.record event, next, b)
  | notify notice next, b => some (.notify notice, next, b)

/-- The second plan is what is left of the first when this has passed. -/
def Leads (p : Plan α) (trace : List Exchange) (q : Plan α) : Prop :=
  ∀ rest result, Exec q rest result → Exec p (trace ++ rest) result

theorem Leads.refl (p : Plan α) : p.Leads [] p := fun _ _ h => h

theorem Leads.trans {p q r : Plan α} {trace trace' : List Exchange} (h : p.Leads trace q)
    (h' : q.Leads trace' r) : p.Leads (trace ++ trace') r := by
  intro rest result hrest
  rw [List.append_assoc]
  exact h _ _ (h' _ _ hrest)

/-- Every plan can be carried out to its end. -/
theorem exists_exec (p : Plan α) : ∃ trace result, Exec p trace result :=
  ⟨_, _, (exec_run p { vault := .empty, ids := [] }).1⟩

variable {p q : Plan α} {b b' : Backend} {x : Exchange}

/-- A plan that has come to its end, with a result or without one. -/
def ended : Option α → Plan α
  | some a => .done a
  | none => .crash

theorem eq_ended_of_exchanges (h : p.exchanges b = []) :
    p = ended (p.run b).1 ∧ (p.run b).2.1 = b := by
  cases p with
  | done a => exact ⟨rfl, rfl⟩
  | crash => exact ⟨rfl, rfl⟩
  | _ => cases h

/-- The first step of a run. -/
theorem advance?_of_exchanges {xs : List Exchange} (h : p.exchanges b = x :: xs) :
    ∃ q b', p.advance? b = some (x, q, b') ∧ q.exchanges b' = xs ∧
      (p.run b).1 = (q.run b').1 ∧ (p.run b).2.1 = (q.run b').2.1 := by
  cases p with
  | done a => cases h
  | crash => cases h
  | _ =>
    obtain ⟨rfl, rfl⟩ := List.cons.inj h
    exact ⟨_, _, rfl, rfl, rfl, rfl⟩

theorem leads_of_advance? (h : p.advance? b = some (x, q, b')) : p.Leads [x] q := by
  intro rest result hrest
  cases p with
  | done a => cases h
  | crash => cases h
  | save key next =>
    cases h
    exact .save hrest
  | retrieve issuer id next =>
    cases h
    exact .retrieve hrest
  | remove issuer id next =>
    cases h
    exact .remove hrest
  | freshId next =>
    cases h
    exact .freshId hrest
  | record event next =>
    cases h
    exact .record hrest
  | notify notice next =>
    cases h
    exact .notify hrest

theorem vault_of_advance? (h : p.advance? b = some (x, q, b')) :
    b'.vault = Exchange.onVault b.vault x := by
  cases p with
  | done a => cases h
  | crash => cases h
  | save key next =>
    cases h
    exact (vault_save b key).symm
  | remove issuer id next =>
    cases h
    exact (vault_remove b issuer id).symm
  | freshId next =>
    cases h
    exact (vault_freshId b).symm
  | _ =>
    cases h
    rfl

theorem follows_of_advance? (h : p.advance? b = some (x, q, b')) : Follows b b' := by
  cases p with
  | done a => cases h
  | crash => cases h
  | save key next =>
    cases h
    exact follows_save b key
  | remove issuer id next =>
    cases h
    exact follows_remove b issuer id
  | freshId next =>
    cases h
    exact follows_freshId b
  | _ =>
    cases h
    exact .refl b

/-- A store without an outage answers what is in it. -/
theorem truthful_of_advance? (h : p.advance? b = some (x, q, b')) (hb : b.outage = {}) :
    x.Truthful b.vault := by
  cases p with
  | done a => cases h
  | crash => cases h
  | save key next =>
    cases h
    simp [Exchange.Truthful, Backend.save, hb]
  | retrieve issuer id next =>
    cases h
    simp [Exchange.Truthful, Backend.retrieve, Outage.answer, hb]
  | remove issuer id next =>
    cases h
    simp [Exchange.Truthful, Backend.remove, hb]
  | _ =>
    cases h
    trivial

/-- An id that is given out is the next of those to come. -/
theorem idsToCome_of_advance? (h : p.advance? b = some (x, q, b')) :
    b.idsToCome = x.freshId?.toList ++ b'.idsToCome := by
  cases p with
  | done a => cases h
  | crash => cases h
  | save key next =>
    cases h
    rw [Backend.save]
    split <;> rfl
  | remove issuer id next =>
    cases h
    rw [Backend.remove]
    split <;> rfl
  | freshId next =>
    cases h
    rw [Backend.idsToCome, Backend.freshId]
    cases hids : b.ids with
    | nil => simp [Exchange.freshId?, Backend.idsToCome, hids]
    | cons first ids => cases first <;> rfl
  | _ =>
    cases h
    rfl

end Plan

/-! ## Calls in flight -/

/-- What has passed, the latest first, each with the number of its call. -/
abbrev Log := List (Nat × Exchange)

namespace Log

/-- What the log has left in an empty vault. -/
def vault : Log → Vault
  | [] => .empty
  | e :: earlier => Exchange.onVault (vault earlier) e.2

/-- What has passed in one call, in order. -/
def own (log : Log) (i : Nat) : List Exchange :=
  (log.reverse.filter fun e => e.1 = i).map Prod.snd

/-- The ids that were given out, in order. -/
def freshIds (log : Log) : List String := log.reverse.filterMap fun e => e.2.freshId?

/-- Every answer was true when it was given. -/
def Truthful : Log → Prop
  | [] => True
  | e :: earlier => e.2.Truthful (vault earlier) ∧ Truthful earlier

variable {log later earlier : Log} {i j : Nat} {x : Exchange}

theorem own_append : own (later ++ earlier) i = own earlier i ++ own later i := by
  simp [own]

theorem own_cons_self : own ((i, x) :: earlier) i = own earlier i ++ [x] := by
  simp [own]

theorem own_cons_of_ne (h : j ≠ i) : own ((j, x) :: earlier) i = own earlier i := by
  simp [own, h]

theorem mem_own : x ∈ own log i ↔ (i, x) ∈ log := by
  simp [own]

theorem freshIds_cons {e : Nat × Exchange} :
    freshIds (e :: earlier) = freshIds earlier ++ e.2.freshId?.toList := by
  cases h : e.2.freshId? <;> simp [freshIds, h]

theorem Truthful.of_append (h : Truthful (later ++ earlier)) : Truthful earlier := by
  induction later with
  | nil => exact h
  | cons e later ih => exact ih h.2

end Log

/-- A call that has begun, and what is left of it. -/
structure Underway where
  /-- The clock as the call has read it. -/
  time : Instant
  call : Call
  rest : Plan (Result Reply)

/-- The calls that have begun, each under its number, and what they run on. -/
structure Workload where
  backend : Plan.Backend
  calls : List Underway := []
  log : Log := []

/-- What comes next: another call begins, or one of the calls makes a step. -/
inductive Turn where
  | start (time : Instant) (call : Call)
  | advance (i : Nat)

/-- The call that begins, if one does. -/
def Turn.started? : Turn → Option (Instant × Call)
  | .start time call => some (time, call)
  | .advance _ => none

namespace Workload

variable (s : KeyService)

/-- A call that has come to its end makes no step, nor does one that has not begun. -/
def step (w : Workload) : Turn → Workload
  | .start time call => { w with calls := w.calls ++ [⟨time, call, call.plan s time⟩] }
  | .advance i =>
    match w.calls[i]? with
    | none => w
    | some c =>
      match c.rest.advance? w.backend with
      | none => w
      | some (x, rest, b) =>
        { backend := b, calls := w.calls.set i { c with rest := rest }, log := (i, x) :: w.log }

def run (w : Workload) (turns : List Turn) : Workload := turns.foldl (step s) w

theorem calls_step (w : Workload) (t : Turn) :
    (w.step s t).calls.map (fun c => (c.time, c.call)) =
      w.calls.map (fun c => (c.time, c.call)) ++ t.started?.toList := by
  cases t with
  | start time call => simp [step, Turn.started?]
  | advance i =>
    rw [Turn.started?, Option.toList_none, List.append_nil, step]
    split
    · rfl
    · next c hc =>
      split
      · rfl
      · obtain ⟨hi, rfl⟩ := List.getElem?_eq_some_iff.mp hc
        refine List.ext_getElem? fun j => ?_
        rw [List.getElem?_map, List.getElem?_map, List.getElem?_set]
        split
        · next hij =>
          subst hij
          simp [hi]
        · rfl

/-- The calls are those that have begun, in that order. -/
theorem calls_run (w : Workload) (turns : List Turn) :
    (w.run s turns).calls.map (fun c => (c.time, c.call)) =
      w.calls.map (fun c => (c.time, c.call)) ++ turns.filterMap Turn.started? := by
  induction turns generalizing w with
  | nil => simp [run]
  | cons t turns ih =>
    have hrest := ih (w.step s t)
    rw [calls_step, List.append_assoc] at hrest
    refine hrest.trans ?_
    cases hstarted : t.started? <;> simp [hstarted]

/-- A call that nothing comes between is carried out as it would be alone. -/
theorem run_alone {w : Workload} {i : Nat} {c : Underway} (hc : w.calls[i]? = some c) :
    w.run s (.replicate (c.rest.exchanges w.backend).length (.advance i)) =
      { backend := (c.rest.run w.backend).2.1
        calls := w.calls.set i { c with rest := .ended (c.rest.run w.backend).1 }
        log := ((c.rest.exchanges w.backend).map fun x => (i, x)).reverse ++ w.log } := by
  generalize hxs : c.rest.exchanges w.backend = xs
  induction xs generalizing w c with
  | nil =>
    obtain ⟨hended, hbackend⟩ := Plan.eq_ended_of_exchanges hxs
    have hsame : w.calls.set i c = w.calls := by
      obtain ⟨hi, rfl⟩ := List.getElem?_eq_some_iff.mp hc
      exact List.set_getElem_self hi
    rw [hbackend, ← hended, hsame]
    rfl
  | cons x xs ih =>
    obtain ⟨rest, b, hstep, hrest, hresult, hbackend⟩ := Plan.advance?_of_exchanges hxs
    have hw : w.step s (.advance i) =
        { backend := b
          calls := w.calls.set i { c with rest := rest }
          log := (i, x) :: w.log } := by
      simp only [step, hc, hstep]
    have hc' : (w.calls.set i { c with rest := rest })[i]? = some { c with rest := rest } :=
      List.getElem?_set_self (List.getElem?_eq_some_iff.mp hc).1
    have hnext := ih (w := ⟨b, _, (i, x) :: w.log⟩) hc' hrest
    rw [hresult, hbackend]
    change run s (w.step s (.advance i)) _ = _
    rw [hw, hnext]
    simp

/-- No call has begun, the vault is empty and the store does not fail; these ids are to come. -/
def start (ids : List (Except Failure String)) : Workload :=
  { backend := { vault := .empty, ids := ids } }

/-- The log tells how things stand. -/
structure Traced (ids : List String) (w : Workload) : Prop where
  outage : w.backend.outage = {}
  vault : w.backend.vault = w.log.vault
  truthful : w.log.Truthful
  fresh : w.log.freshIds ++ w.backend.idsToCome = ids
  numbered : ∀ e ∈ w.log, e.1 < w.calls.length
  leads : ∀ {i : Nat} {c : Underway}, w.calls[i]? = some c →
    (c.call.plan s c.time).Leads (w.log.own i) c.rest

variable {s : KeyService} {ids : List String} {w : Workload}

theorem traced_start (ids : List (Except Failure String)) :
    (start ids).Traced s (ids.filterMap Except.toOption) where
  outage := rfl
  vault := rfl
  truthful := trivial
  fresh := rfl
  numbered := nofun
  leads h := by cases h

theorem Traced.begin (hw : w.Traced s ids) (time : Instant) (call : Call) :
    (w.step s (.start time call)).Traced s ids where
  outage := hw.outage
  vault := hw.vault
  truthful := hw.truthful
  fresh := hw.fresh
  numbered e he := by
    have hlt := hw.numbered e he
    simp only [step, List.length_append, List.length_singleton]
    omega
  leads {i c} hc := by
    simp only [step, List.getElem?_append] at hc
    split at hc
    · exact hw.leads hc
    · next hi =>
      -- nothing has passed yet under the number of the new call
      have hnone : w.log.own i = [] := by
        refine List.eq_nil_iff_forall_not_mem.mpr fun x hx => ?_
        exact hi (hw.numbered _ (Log.mem_own.mp hx))
      obtain rfl : c = ⟨time, call, call.plan s time⟩ := by
        simpa using List.mem_of_getElem? hc
      rw [step, hnone]
      exact .refl _

theorem Traced.advance (hw : w.Traced s ids) {i : Nat} {c : Underway} {x : Exchange}
    {rest : Plan (Result Reply)} {b : Plan.Backend} (hc : w.calls[i]? = some c)
    (hx : c.rest.advance? w.backend = some (x, rest, b)) :
    Traced s ids
      { backend := b, calls := w.calls.set i { c with rest := rest }, log := (i, x) :: w.log } where
  outage := (Plan.follows_of_advance? hx).outage_eq.trans hw.outage
  vault := by rw [Plan.vault_of_advance? hx, hw.vault, Log.vault]
  truthful := by
    refine ⟨?_, hw.truthful⟩
    rw [← hw.vault]
    exact Plan.truthful_of_advance? hx hw.outage
  fresh := by
    rw [Log.freshIds_cons, List.append_assoc, ← Plan.idsToCome_of_advance? hx]
    exact hw.fresh
  numbered e he := by
    rw [List.length_set]
    rcases List.mem_cons.mp he with rfl | he
    · exact (List.getElem?_eq_some_iff.mp hc).1
    · exact hw.numbered e he
  leads {j c'} hc' := by
    by_cases hij : i = j
    · subst hij
      rw [List.getElem?_set_self (List.getElem?_eq_some_iff.mp hc).1] at hc'
      cases hc'
      rw [Log.own_cons_self]
      exact (hw.leads hc).trans (Plan.leads_of_advance? hx)
    · rw [List.getElem?_set_ne hij] at hc'
      rw [Log.own_cons_of_ne hij]
      exact hw.leads hc'

theorem Traced.step (hw : w.Traced s ids) (t : Turn) : (w.step s t).Traced s ids := by
  cases t with
  | start time call => exact hw.begin time call
  | advance i =>
    rw [Workload.step]
    split
    · exact hw
    · next c hc =>
      split
      · exact hw
      · next x rest b hx => exact hw.advance hc hx

theorem Traced.run (hw : w.Traced s ids) (turns : List Turn) : (w.run s turns).Traced s ids := by
  induction turns generalizing w with
  | nil => exact hw
  | cons t turns ih => exact ih (hw.step t)

/-- Whichever way a call goes on from here, it takes one of its courses. -/
theorem Traced.course (hw : w.Traced s ids) {i : Nat} {c : Underway} (hc : w.calls[i]? = some c)
    {rest : List Exchange} {answer : Option (Result Reply)} (h : Exec c.rest rest answer) :
    Entry.Course s ⟨c.time, c.call, answer⟩ (w.log.own i ++ rest) :=
  Entry.course_of_exec (e := ⟨c.time, c.call, answer⟩) (hw.leads hc _ _ h)

end Workload
end Gatehouse
