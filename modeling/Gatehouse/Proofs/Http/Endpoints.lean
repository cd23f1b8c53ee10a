import Gatehouse.Http.Routes
import Gatehouse.Proofs.Keys.Plan

/-!
What all endpoints have in common: they answer without looking further, or with the result of one
operation, or with its failure. So a property that the answers to failures have, and all answers
that are nothing special (`Common`), is left to be shown of those that carry a new key
(`always_answer`, `always_issueKey`).
-/

namespace Gatehouse.Http

open KeyService (Result)
open Plan (Always always_done)

/-- A property of the answers to failures, and of all answers but `201 Created`, `403 Forbidden` and
those of the server's own faults. -/
structure Common (P : Response → Prop) : Prop where
  failure : ∀ e, P (.ofFailure e)
  plain : ∀ answer : Response, answer.status ∉ [201, 403] → answer.status < 500 → P answer

variable {P : Response → Prop} {s : KeyService} {now : Instant} {r : Request} {answer : Response}

theorem kind_of_ofCode {n : Nat} {e : Failure} (h : KeyKind.ofCode n = .error e) :
    e.kind = .malformedEntity := by
  unfold KeyKind.ofCode at h
  split at h <;> cases h
  rfl

theorem status_of_refused_order {o : IssueOrder} {t : Instant} (h : o.request t = .error answer) :
    answer.status = 400 := by
  unfold IssueOrder.request at h
  split at h
  · next e he =>
    cases h
    have hkind : e.kind = .malformedEntity := by
      cases hcode : o.kind with
      | none => simp [hcode] at he
      | some n => exact kind_of_ofCode (by simpa [hcode] using he)
    show statusOf e.kind = 400
    rw [hkind]
    rfl
  · cases h
    rfl
  · cases h
  · split at h
    · cases h
    · split at h
      · cases h
      · cases h
        rfl

section Common

variable (hP : Common P)

include hP

theorem always_plain (hstatus : answer.status ∉ [201, 403]) (hfault : answer.status < 500) :
    Always P (.done answer) := always_done (hP.plain answer hstatus hfault)

theorem always_failed (e : Failure) : Always P (failed e) := by
  unfold failed
  split
  · exact (always_done (hP.failure e)).notify _
  · exact always_done (hP.failure e)

/-- The result of an operation is answered by its own answer or as a failure. -/
theorem always_reply {α : Type} {p : Plan (Result α)} {f : Result α → Plan Response}
    (hok : ∀ a, Always P (f (.ok a))) (herror : ∀ e, f (.error e) = failed e) :
    Always P (p >>= f) := by
  have hany : Always (fun _ => True) p := fun _ _ _ => trivial
  refine hany.bind fun result _ => ?_
  cases result with
  | ok a => exact hok a
  | error e =>
    rw [herror]
    exact always_failed hP e

theorem always_withId {id : List Char} {answer : String → Plan Response}
    (h : ∀ id, Always P (answer id)) : Always P (withId id answer) := by
  unfold withId
  split
  · exact h _
  · exact always_plain hP (by decide) (by decide)

theorem always_withToken {answer : String → Plan Response}
    (h : ∀ token, Always P (answer token)) : Always P (withToken r answer) := by
  unfold withToken
  split
  · exact always_plain hP (by decide) (by decide)
  split
  · exact always_plain hP (by decide) (by decide)
  split
  · exact h _
  · next fault _ => cases fault <;> exact always_plain hP (by decide) (by decide)

/-- No answer but that of the issue of a key is special. -/
theorem always_answer {route : Route} {method : Method}
    (h : ¬ (route = .keys ∧ method = .post)) : Always P (route.answer s now r method) := by
  unfold Route.answer
  split
  · exact absurd ⟨rfl, rfl⟩ h
  · exact always_withId hP fun id =>
      always_reply hP (fun key => always_plain hP (by simp [shown]) (by simp [shown])) fun _ => rfl
  · exact always_withId hP fun id =>
      always_reply hP (fun _ => always_plain hP (by decide) (by decide)) fun _ => rfl
  · exact always_withToken hP fun token =>
      always_reply hP (fun identity => always_plain hP (by simp) (by simp)) fun _ => rfl
  · exact always_plain hP (by decide) (by decide)
  · exact always_plain hP (by decide) (by decide)

theorem always_issueKey (hissued : ∀ key, P (issued key)) (credential : String)
    (body : List UInt8) : Always P (issueKey s now credential body) := by
  unfold issueKey
  split
  · exact always_plain hP (by simp [misunderstood, refusal]) (by simp [misunderstood, refusal])
  split
  · next hrequest =>
    have hstatus := status_of_refused_order hrequest
    exact always_plain hP (by simp [hstatus]) (by simp [hstatus])
  · exact always_reply hP (fun key => always_done (hissued key)) fun _ => rfl

/-- So all requests are answered so, if new keys are and a body does not matter. -/
theorem always_respond (hissued : ∀ key, P (issued key))
    (hbody : ∀ answer, P answer → P answer.withoutBody) : Always P (respond s now r) := by
  unfold respond
  split
  · exact always_plain hP (by decide) (by decide)
  next route _ =>
  split
  · exact (always_answer hP (by simp)).bind fun answer hanswer => always_done (hbody answer hanswer)
  by_cases hkeys : route = .keys ∧ r.method = .post
  · obtain ⟨rfl, hmethod⟩ := hkeys
    rw [hmethod]
    simp only [Route.answer]
    split
    · exact always_plain hP (by decide) (by decide)
    · exact always_issueKey hP hissued _ _
  · exact always_answer hP hkeys

end Common

end Gatehouse.Http
