import Gatehouse.Http.Response
import Gatehouse.Observe.Response

/-!
What the names of operations around a failure change, and what they do not. They stand in front of
its text and in front of the causes behind it, and nothing that decides an answer looks at them.

A failure is some operations around a root that has none (`duringAll_operations`), so each fact is
shown for one operation and carried over a list of them by induction. The classes of failure that
the two transports tell apart differ, but they agree on rejections and on malformed requests
(`dotted_eq_forbidden_iff`, `badRequest_iff`), and only a rejection reads as one
(`message_root_eq_iff`).
-/

namespace Gatehouse
namespace Failure

/-! ## The operations around a root -/

/-- The operations around the root of a failure, outermost first. -/
def operations : Failure → List String
  | during operation cause => operation :: cause.operations
  | _ => []

theorem operations_root (e : Failure) : e.root.operations = [] := by
  induction e with
  | during operation cause ih => exact ih
  | _ => rfl

theorem root_root (e : Failure) : e.root.root = e.root := by
  induction e with
  | during operation cause ih => exact ih
  | _ => rfl

theorem duringAll_operations (e : Failure) : duringAll e.operations e.root = e := by
  induction e with
  | during operation cause ih => exact congrArg (during operation) ih
  | _ => rfl

theorem duringAll_append (outer inner : List String) (e : Failure) :
    duringAll (outer ++ inner) e = duringAll outer (duringAll inner e) :=
  List.foldr_append

theorem duringAll_root (operations : List String) (e : Failure) :
    duringAll (operations ++ e.operations) e.root = duringAll operations e := by
  rw [duringAll_append, duringAll_operations]

theorem root_duringAll (operations : List String) (e : Failure) :
    (duringAll operations e).root = e.root := by
  induction operations with
  | nil => rfl
  | cons operation operations ih => exact ih

theorem message_duringAll (operations : List String) (e : Failure) :
    (duringAll operations e).message = ": ".intercalate (operations ++ [e.message]) := by
  induction operations with
  | nil => exact String.intercalate_singleton.symm
  | cons operation operations ih =>
    rw [List.cons_append, String.intercalate_cons_of_ne_nil (by simp), ← ih]
    rfl

example : (duringAll ["issue user key", "save key"] conflict).message =
    "issue user key: save key: entity already exists" := by decide

/-! ## What is read off the root -/

/-- Two failures that no caller can tell apart by class, reason or answer. -/
structure SameOutcome (e e' : Failure) : Prop where
  root : e.root = e'.root
  kind : e.kind = e'.kind
  reason : e.denyReason? = e'.denyReason?
  rejected : e.isUnauthorized = e'.isUnauthorized
  status : (Http.Response.ofFailure e).status = (Http.Response.ofFailure e').status
  code : Observe.ResponseCode.ofFailure e = Observe.ResponseCode.ofFailure e'

/-- Class and reason are those of the root, and the answers are read off the class. -/
theorem sameOutcome_of_root {e e' : Failure} (h : e.root = e'.root) : e.SameOutcome e' := by
  have hkind : e.kind = e'.kind := by rw [← kind_root e, h, kind_root]
  have hreason : e.denyReason? = e'.denyReason? := by
    rw [← denyReason?_root e, h, denyReason?_root]
  exact ⟨h, hkind, hreason, by rw [isUnauthorized, isUnauthorized, hkind],
    congrArg Http.statusOf hkind, congrArg Observe.ResponseCode.ofKind hkind⟩

/-! ## The causes behind a failure -/

/-- The direct cause behind a cause. The fault of a session has none, and `behind` tells what a
library keeps behind an error of its own. -/
def Source.source? (behind : String → Option Source) : Source → Option Source
  | .failure cause => cause.source?
  | .session _ => none
  | .library text => behind text

/-- Asking each cause for the one behind it gives `causes` and then none. -/
inductive Walk (behind : String → Option Source) : Option Source → List Source → Prop
  | done : Walk behind none []
  | step {s : Source} {rest : List Source} (h : Walk behind (s.source? behind) rest) :
      Walk behind (some s) (s :: rest)

variable {behind : String → Option Source} {causes causes' : List Source}

theorem Walk.unique {s? : Option Source} (h : Walk behind s? causes)
    (h' : Walk behind s? causes') : causes = causes' := by
  induction h generalizing causes' with
  | done => cases h'; rfl
  | @step s rest _ ih =>
    obtain _ | h' := h'
    exact congrArg (s :: ·) (ih h')

/-- Causes end where those of the libraries do: a failure is behind another one only as a part of
it. -/
theorem exists_walk (hends : ∀ text, ∃ causes, Walk behind (behind text) causes) (e : Failure) :
    ∃ causes, Walk behind e.source? causes := by
  induction e with
  | denied reason cause ih | during operation cause ih =>
    obtain ⟨causes, h⟩ := ih
    exact ⟨.failure cause :: causes, .step h⟩
  | unsubscribe fault => exact ⟨[.session fault], .step .done⟩
  | io text | json text =>
    obtain ⟨causes, h⟩ := hends text
    exact ⟨.library text :: causes, .step h⟩
  | _ => exact ⟨[], .done⟩

/-- Where libraries keep nothing behind their errors, `sources` is the walk. -/
theorem walk_sources (e : Failure) : Walk (fun _ => none) e.source? e.sources := by
  induction e with
  | denied reason cause ih | during operation cause ih => exact .step ih
  | unsubscribe fault | io text | json text => exact .step .done
  | _ => exact .done

/-- The failure under each of the operations around `e`, from the outermost in. -/
def layers : List String → Failure → List Source
  | [], _ => []
  | _ :: inner, e => .failure (duringAll inner e) :: layers inner e

theorem walk_duringAll {e : Failure} (h : Walk behind e.source? causes)
    (operations : List String) :
    Walk behind (duringAll operations e).source? (layers operations e ++ causes) := by
  induction operations with
  | nil => exact h
  | cons operation operations ih => exact .step ih

/-! ## Rejections -/

/-- No text makes up for a lead that the other text does not start with. -/
theorem append_ne_of_not_leads {lead target : String}
    (h : ¬ lead.toList <+: target.toList) (text : String) : lead ++ text ≠ target := by
  rintro rfl
  exact h ⟨text.toList, String.toList_append.symm⟩

/-- A root reads as a rejection only if it is one, whatever text it brings. -/
theorem message_root_eq_iff (e : Failure) :
    e.root.message = "unauthorized access" ↔ e.kind = .unauthorized := by
  induction e with
  | during operation cause ih => exact ih
  | unauthorized reason => exact iff_of_true rfl rfl
  | denied reason cause => exact iff_of_true rfl rfl
  | invalidIssueTime | notFound | conflict => exact iff_of_false (by decide) nofun
  | unsubscribe fault =>
    exact iff_of_false (append_ne_of_not_leads (by decide) fault.message) nofun
  | malformedEntity text | remote text | config text | io text | json text | internal text =>
    exact iff_of_false (append_ne_of_not_leads (by decide) text) nofun

theorem denyReason?_isSome_iff (e : Failure) :
    e.denyReason?.isSome ↔ e.kind = .unauthorized := by
  induction e with
  | during operation cause ih => exact ih
  | unauthorized reason | denied reason cause => exact iff_of_true rfl rfl
  | _ => exact iff_of_false nofun nofun

end Failure

/-! ## The two transports -/

namespace Http

theorem statusOf_eq_forbidden_iff {kind : FailureKind} :
    statusOf kind = 403 ↔ kind = .unauthorized := by
  cases kind <;> decide

end Http

namespace Observe.ResponseCode

theorem dotted_eq_forbidden_iff {kind : FailureKind} :
    (ofKind kind).dotted = "4.03" ↔ kind = .unauthorized := by
  cases kind <;> decide

theorem badRequest_iff {kind : FailureKind} :
    Http.statusOf kind = 400 ↔ (ofKind kind).dotted = "4.00" := by
  cases kind <;> decide

end Observe.ResponseCode

/-- Operations around a failure leave its root, class and reason and both answers as they are, stand
in front of the text of its root, and are the first layers that its causes are found under. Both
transports answer rejections alike, and only those, and so they do for malformed requests. -/
theorem Failure.operations_are_transparent (operations : List String) (e : Failure) :
    let wrapped := duringAll operations e
    let all := operations ++ e.operations
    wrapped = duringAll all e.root ∧ e.root.operations = [] ∧
    wrapped.SameOutcome e ∧
    wrapped.message = ": ".intercalate (all ++ [e.root.message]) ∧
    (∀ behind : String → Option Source, (∀ text, ∃ causes, Walk behind (behind text) causes) →
      ∃ own, (∀ causes, Walk behind e.root.source? causes ↔ causes = own) ∧
        ∀ causes, Walk behind wrapped.source? causes ↔ causes = layers all e.root ++ own) ∧
    Walk (fun _ => none) wrapped.source? wrapped.sources ∧
    (e.denyReason?.isSome ↔ (Http.Response.ofFailure e).status = 403) ∧
    (e.denyReason?.isSome ↔ (Observe.ResponseCode.ofFailure e).dotted = "4.03") ∧
    (e.denyReason?.isSome ↔ e.root.message = "unauthorized access") ∧
    ((Http.Response.ofFailure e).status = 400 ↔
      (Observe.ResponseCode.ofFailure e).dotted = "4.00") := by
  intro wrapped all
  have hwrapped : wrapped = duringAll all e.root := (duringAll_root operations e).symm
  have hreason := e.denyReason?_isSome_iff
  refine ⟨hwrapped, e.operations_root, sameOutcome_of_root (root_duringAll operations e), ?_, ?_,
    wrapped.walk_sources, hreason.trans Http.statusOf_eq_forbidden_iff.symm,
    hreason.trans Observe.ResponseCode.dotted_eq_forbidden_iff.symm,
    hreason.trans e.message_root_eq_iff.symm, Observe.ResponseCode.badRequest_iff⟩
  · rw [hwrapped, message_duringAll]
  · intro behind hends
    obtain ⟨own, hown⟩ := exists_walk hends e.root
    have hall : Walk behind wrapped.source? (layers all e.root ++ own) := by
      rw [hwrapped]
      exact walk_duringAll hown all
    exact ⟨own, fun causes => ⟨fun h => h.unique hown, fun h => h ▸ hown⟩,
      fun causes => ⟨fun h => h.unique hall, fun h => h ▸ hall⟩⟩

/-- A library that keeps an error about a sector behind its error about a disk. -/
def Failure.behindDisk (text : String) : Option Source :=
  if text = "disk" then some (.library "sector") else none

/-- A rejection because the disk failed, with an operation around it and one around the failure
behind it. -/
theorem Failure.causes_of_disk_denial :
    let cause : Failure := .during "delete key" (.io "disk")
    let denial : Failure := .denied .keyExpired cause
    (∀ text, ∃ causes, Walk behindDisk (behindDisk text) causes) ∧
      ∀ causes, Walk behindDisk (Failure.during "identify" denial).source? causes ↔
        causes = [.failure denial, .failure cause, .failure (.io "disk"), .library "disk",
          .library "sector"] := by
  intro cause denial
  have hsector : Walk behindDisk (some (.library "sector")) [.library "sector"] := .step .done
  have hends : ∀ text, ∃ causes, Walk behindDisk (behindDisk text) causes := by
    intro text
    unfold behindDisk
    split
    · exact ⟨_, hsector⟩
    · exact ⟨_, .done⟩
  obtain ⟨-, -, -, -, hwalks, -⟩ := operations_are_transparent ["identify"] denial
  obtain ⟨own, hown, hall⟩ := hwalks behindDisk hends
  have hcauses : Walk behindDisk denial.root.source?
      [.failure cause, .failure (.io "disk"), .library "disk", .library "sector"] :=
    .step (.step (.step hsector))
  obtain rfl := (hown _).mp hcauses
  exact ⟨hends, hall⟩

end Gatehouse
