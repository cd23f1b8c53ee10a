import Gatehouse.Gateway
import Gatehouse.Proofs.Failure
import Gatehouse.Proofs.Http.Credentials

/-!
What the answers to failures keep to themselves. Failures fall into classes that a client cannot
tell apart, and an answer tells the class and nothing more (`ofFailure_eq_iff`): all rejections read
the same, all faults of the gateway read the same, and for the caller's own mistakes the failure
itself shows, without the operations around it. So collaborators that fail with other texts, under
other operations or with other causes are not noticed by any client (`Gateway.answers_eq`), and no
reason of a rejection is ever told (`Http.always_discreet`).
-/

namespace Gatehouse

open KeyService (Result)

/-! ## Failures that are answered alike -/

/-- Failures of one class. -/
inductive Failure.Alike (e e' : Failure) : Prop
  | rejections (h : e.kind = .unauthorized) (h' : e'.kind = .unauthorized)
  | serverFaults (h : 500 ≤ Http.statusOf e.kind) (h' : 500 ≤ Http.statusOf e'.kind)
  | sameRoot (h : e.root = e'.root)

namespace Failure

variable {e e' : Failure}

theorem Alike.refl (e : Failure) : e.Alike e := .sameRoot rfl

/-- The operations around failures do not count. -/
theorem Alike.during (h : e.Alike e') (operation operation' : String) :
    (Failure.during operation e).Alike (.during operation' e') := by
  cases h with
  | rejections h h' => exact .rejections h h'
  | serverFaults h h' => exact .serverFaults h h'
  | sameRoot h => exact .sameRoot h

theorem alike_duringAll (operations : List String) (e : Failure) :
    (duringAll operations e).Alike e :=
  .sameRoot (root_duringAll operations e)

/-- A mistake of the caller, told as it is. -/
inductive IsMistake : Failure → Prop
  | invalidIssueTime : IsMistake .invalidIssueTime
  | malformedEntity (text : String) : IsMistake (.malformedEntity text)
  | notFound : IsMistake .notFound
  | conflict : IsMistake .conflict

/-- What is neither a rejection nor the gateway's own fault is a mistake of the caller. -/
theorem isMistake_root (hkind : e.kind ≠ .unauthorized) (hstatus : ¬ 500 ≤ Http.statusOf e.kind) :
    e.root.IsMistake := by
  induction e with
  | during operation cause ih => exact ih hkind hstatus
  | invalidIssueTime => exact .invalidIssueTime
  | malformedEntity text => exact .malformedEntity text
  | notFound => exact .notFound
  | conflict => exact .conflict
  | unauthorized reason => exact absurd rfl hkind
  | denied reason cause => exact absurd rfl hkind
  | unsubscribe fault => exact absurd (Nat.le_refl 500) hstatus
  | remote text => exact absurd (Nat.le_refl 500) hstatus
  | config text => exact absurd (Nat.le_refl 500) hstatus
  | io text => exact absurd (Nat.le_refl 500) hstatus
  | json text => exact absurd (Nat.le_refl 500) hstatus
  | internal text => exact absurd (Nat.le_refl 500) hstatus

/-- No other mistake reads as one that brings a text of its own. -/
theorem message_ne_malformedEntity {m : String}
    (hm : ¬ "malformed entity specification: ".toList <+: m.toList) (text : String) :
    m ≠ (malformedEntity text).message :=
  (append_ne_of_not_leads hm text).symm

/-- Mistakes that read the same are the same. -/
theorem IsMistake.eq_of_message (he : e.IsMistake) (he' : e'.IsMistake)
    (h : e.message = e'.message) : e = e' := by
  by_cases htext : ∃ text, e = .malformedEntity text
  · obtain ⟨text, rfl⟩ := htext
    cases he' with
    | malformedEntity text' =>
      unfold message at h
      have hlist := congrArg String.toList h
      rw [String.toList_append, String.toList_append] at hlist
      exact congrArg Failure.malformedEntity (String.toList_inj.mp (List.append_cancel_left hlist))
    | invalidIssueTime => exact absurd h.symm (message_ne_malformedEntity (by decide) text)
    | notFound => exact absurd h.symm (message_ne_malformedEntity (by decide) text)
    | conflict => exact absurd h.symm (message_ne_malformedEntity (by decide) text)
  · cases he' with
    | malformedEntity text =>
      cases he with
      | malformedEntity text' => exact absurd ⟨text', rfl⟩ htext
      | invalidIssueTime => exact absurd h (message_ne_malformedEntity (by decide) text)
      | notFound => exact absurd h (message_ne_malformedEntity (by decide) text)
      | conflict => exact absurd h (message_ne_malformedEntity (by decide) text)
    | _ =>
      cases he with
      | malformedEntity text' => exact absurd ⟨text', rfl⟩ htext
      | _ => first | rfl | exact absurd h (by decide)

end Failure

namespace Http

variable {e e' : Failure}

theorem ofFailure_of_unauthorized (h : e.kind = .unauthorized) : .ofFailure e = forbidden := by
  rw [Response.ofFailure, isServerFault, h, e.message_root_eq_iff.mpr h]
  rfl

/-- The answer to every fault of the gateway. -/
def internalError : Response := refusal 500 "internal_error" "internal error"

theorem ofFailure_of_serverFault (h : 500 ≤ statusOf e.kind) : .ofFailure e = internalError := by
  rw [Response.ofFailure, isServerFault, decide_eq_true h, if_pos rfl]
  revert h
  cases e.kind <;> simp [statusOf, codeOf, internalError]

theorem ofFailure_of_not_serverFault (h : ¬ 500 ≤ statusOf e.kind) :
    .ofFailure e = refusal (statusOf e.kind) (codeOf e.kind) e.root.message := by
  rw [Response.ofFailure, isServerFault, decide_eq_false h]
  rfl

theorem message_eq_of_refusal_eq {status status' : Nat} {code code' message message' : String}
    (h : refusal status code message = refusal status' code' message') : message = message' := by
  cases h
  rfl

theorem ofFailure_root (e : Failure) : Response.ofFailure e.root = .ofFailure e := by
  rw [Response.ofFailure, Response.ofFailure, isServerFault, isServerFault, Failure.kind_root,
    Failure.root_root]

/-- Two failures have the same answer if and only if they are of one class. -/
theorem ofFailure_eq_iff : Response.ofFailure e = .ofFailure e' ↔ e.Alike e' := by
  constructor
  · intro h
    have hstatus : statusOf e.kind = statusOf e'.kind := congrArg Response.status h
    by_cases hkind : e.kind = .unauthorized
    · rw [statusOf_eq_forbidden_iff.mpr hkind] at hstatus
      exact .rejections hkind (statusOf_eq_forbidden_iff.mp hstatus.symm)
    have hkind' : e'.kind ≠ .unauthorized := by
      rwa [ne_eq, ← statusOf_eq_forbidden_iff, ← hstatus, statusOf_eq_forbidden_iff]
    by_cases hfault : 500 ≤ statusOf e.kind
    · exact .serverFaults hfault (hstatus ▸ hfault)
    · have hfault' : ¬ 500 ≤ statusOf e'.kind := hstatus ▸ hfault
      have hmessage : e.root.message = e'.root.message := by
        rw [ofFailure_of_not_serverFault hfault, ofFailure_of_not_serverFault hfault'] at h
        exact message_eq_of_refusal_eq h
      exact .sameRoot ((Failure.isMistake_root hkind hfault).eq_of_message
        (Failure.isMistake_root hkind' hfault') hmessage)
  · intro h
    cases h with
    | rejections h h' => rw [ofFailure_of_unauthorized h, ofFailure_of_unauthorized h']
    | serverFaults h h' => rw [ofFailure_of_serverFault h, ofFailure_of_serverFault h']
    | sameRoot h => rw [← ofFailure_root e, h, ofFailure_root]

end Http

/-! ## Plans that go the same way -/

/-- Results that differ at most in what a failure says about itself. -/
inductive SameUpToFailure {α : Type} : Except Failure α → Except Failure α → Prop
  | ok (a : α) : SameUpToFailure (.ok a) (.ok a)
  | error {e e' : Failure} (h : e.Alike e') : SameUpToFailure (.error e) (.error e')

theorem SameUpToFailure.refl {α : Type} (r : Except Failure α) : SameUpToFailure r r := by
  cases r with
  | ok a => exact .ok a
  | error e => exact .error (.refl e)

namespace Plan

variable {α β : Type}

/-- Plans that go the same way as long as their collaborators give them answers that differ at most
in what failures say. They may tell the operator different things. -/
inductive Agree (R : α → α → Prop) : Plan α → Plan α → Prop
  | done {a a' : α} (h : R a a') : Agree R (.done a) (.done a')
  | crash : Agree R .crash .crash
  | save {key : Key} {next next' : Except Failure String → Plan α}
    (h : ∀ r r', SameUpToFailure r r' → Agree R (next r) (next' r')) :
    Agree R (.save key next) (.save key next')
  | retrieve {issuer id : String} {next next' : Except Failure Key → Plan α}
    (h : ∀ r r', SameUpToFailure r r' → Agree R (next r) (next' r')) :
    Agree R (.retrieve issuer id next) (.retrieve issuer id next')
  | remove {issuer id : String} {next next' : Except Failure Unit → Plan α}
    (h : ∀ r r', SameUpToFailure r r' → Agree R (next r) (next' r')) :
    Agree R (.remove issuer id next) (.remove issuer id next')
  | freshId {next next' : Except Failure String → Plan α}
    (h : ∀ r r', SameUpToFailure r r' → Agree R (next r) (next' r')) :
    Agree R (.freshId next) (.freshId next')
  | record {event : AuditEvent} {next next' : Plan α} (h : Agree R next next') :
    Agree R (.record event next) (.record event next')
  | notify {notice notice' : Notice} {next next' : Plan α} (h : Agree R next next') :
    Agree R (.notify notice next) (.notify notice' next')

theorem Agree.bind {R : α → α → Prop} {S : β → β → Prop} {p p' : Plan α} {f f' : α → Plan β}
    (hp : Agree R p p') (hf : ∀ a a', R a a' → Agree S (f a) (f' a')) :
    Agree S (p.bind f) (p'.bind f') := by
  induction hp with
  | done h => exact hf _ _ h
  | crash => exact .crash
  | save _ ih => exact .save fun r r' hr => ih r r' hr
  | retrieve _ ih => exact .retrieve fun r r' hr => ih r r' hr
  | remove _ ih => exact .remove fun r r' hr => ih r r' hr
  | freshId _ ih => exact .freshId fun r r' hr => ih r r' hr
  | record _ ih => exact .record ih
  | notify _ ih => exact .notify ih

/-- Backends that hold the same and fail at the same calls, with failures of the same classes. -/
structure Backend.Alike (b b' : Backend) : Prop where
  vault : b.vault = b'.vault
  save : Option.Rel Failure.Alike b.outage.save b'.outage.save
  retrieve : Option.Rel Failure.Alike b.outage.retrieve b'.outage.retrieve
  remove : Option.Rel Failure.Alike b.outage.remove b'.outage.remove
  ids : List.Forall₂ SameUpToFailure b.ids b'.ids

namespace Backend.Alike

variable {b b' : Backend}

theorem save_alike (hb : b.Alike b') (key : Key) :
    SameUpToFailure (b.save key).1 (b'.save key).1 ∧ (b.save key).2.Alike (b'.save key).2 := by
  obtain ⟨vault, ⟨save, retrieve, remove⟩, ids⟩ := b
  obtain ⟨vault', ⟨save', retrieve', remove'⟩, ids'⟩ := b'
  obtain ⟨rfl, hsave, hretrieve, hremove, hids⟩ := hb
  cases hsave with
  | none => exact ⟨.refl _, rfl, .none, hretrieve, hremove, hids⟩
  | some h => exact ⟨.error h, rfl, .some h, hretrieve, hremove, hids⟩

theorem retrieve_alike (hb : b.Alike b') (issuer id : String) :
    SameUpToFailure (b.retrieve issuer id) (b'.retrieve issuer id) := by
  obtain ⟨vault, ⟨save, retrieve, remove⟩, ids⟩ := b
  obtain ⟨vault', ⟨save', retrieve', remove'⟩, ids'⟩ := b'
  obtain ⟨rfl, hsave, hretrieve, hremove, hids⟩ := hb
  cases hretrieve with
  | none => exact .refl _
  | some h => exact .error h

theorem remove_alike (hb : b.Alike b') (issuer id : String) :
    SameUpToFailure (b.remove issuer id).1 (b'.remove issuer id).1 ∧
      (b.remove issuer id).2.Alike (b'.remove issuer id).2 := by
  obtain ⟨vault, ⟨save, retrieve, remove⟩, ids⟩ := b
  obtain ⟨vault', ⟨save', retrieve', remove'⟩, ids'⟩ := b'
  obtain ⟨rfl, hsave, hretrieve, hremove, hids⟩ := hb
  cases hremove with
  | none => exact ⟨.refl _, rfl, hsave, hretrieve, .none, hids⟩
  | some h => exact ⟨.error h, rfl, hsave, hretrieve, .some h, hids⟩

theorem freshId_alike (hb : b.Alike b') :
    SameUpToFailure b.freshId.1 b'.freshId.1 ∧ b.freshId.2.Alike b'.freshId.2 := by
  obtain ⟨vault, outage, ids⟩ := b
  obtain ⟨vault', outage', ids'⟩ := b'
  obtain ⟨rfl, hsave, hretrieve, hremove, hids⟩ := hb
  cases hids with
  | nil => exact ⟨.refl _, rfl, hsave, hretrieve, hremove, .nil⟩
  | cons h hids => exact ⟨h, rfl, hsave, hretrieve, hremove, hids⟩

end Backend.Alike

theorem Agree.run {R : α → α → Prop} {p p' : Plan α} (hp : Agree R p p') {b b' : Backend}
    (hb : b.Alike b') :
    Option.Rel R (p.run b).1 (p'.run b').1 ∧ (p.run b).2.1.Alike (p'.run b').2.1 := by
  induction hp generalizing b b' with
  | done h => exact ⟨.some h, hb⟩
  | crash => exact ⟨.none, hb⟩
  | save _ ih =>
    obtain ⟨hanswer, hafter⟩ := hb.save_alike _
    exact ih _ _ hanswer hafter
  | retrieve _ ih => exact ih _ _ (hb.retrieve_alike _ _) hb
  | remove _ ih =>
    obtain ⟨hanswer, hafter⟩ := hb.remove_alike _ _
    exact ih _ _ hanswer hafter
  | freshId _ ih =>
    obtain ⟨hanswer, hafter⟩ := hb.freshId_alike
    exact ih _ _ hanswer hafter
  | record _ ih => exact ih hb
  | notify _ ih => exact ih hb

end Plan

/-! ## The operations of the service -/

namespace KeyService

variable {α : Type} (s : KeyService) (now : Instant)

/-- The plan goes the same way on collaborators that differ at most in what failures say. -/
def Steady (p : Plan (Result α)) : Prop := Plan.Agree SameUpToFailure p p

theorem steady_done (r : Result α) : Steady (.done r) := .done (.refl r)

theorem steady_deny (operation : String) (reason : DenyReason) :
    Steady (deny (α := α) operation reason) := .record (steady_done _)

theorem steady_removeExpired {p : Plan (Result α)} (hp : Steady p) (issuer id : String) :
    Steady (removeExpired issuer id p) := by
  refine .remove fun r r' hr => ?_
  cases hr with
  | ok => exact .record hp
  | error h => exact .notify (.record hp)

theorem steady_identifyClaims (operation : String) (claims : Claims) :
    Steady (identifyClaims now operation claims) := by
  unfold identifyClaims
  split
  · refine .retrieve fun r r' hr => ?_
    cases hr with
    | error h => exact .done (.error h)
    | ok key =>
      dsimp only
      split
      · exact steady_removeExpired (steady_deny _ _) _ _
      · exact steady_done _
  · split
    · exact steady_deny _ _
    · exact steady_done _
  · split
    · exact steady_deny _ _
    · exact steady_done _
  · exact steady_deny _ _

theorem steady_login (operation token : String) : Steady (s.login now operation token) := by
  unfold login
  split
  · exact steady_deny _ _
  · split
    · exact steady_identifyClaims now _ _
    · exact steady_deny _ _

theorem steady_identify (token : String) : Steady (s.identify now token) := by
  unfold identify
  split
  · exact steady_identifyClaims now _ _
  · split
    · exact steady_identifyClaims now _ _
    · exact steady_deny _ _
  · exact steady_deny _ _

theorem steady_sessionKey (subject : String) (span : Span) (request : Key) :
    Steady (s.sessionKey subject span request) := by
  unfold sessionKey
  split
  · exact .crash
  · exact .record (steady_done _)

/-- What follows a login may use its result, and names the operation around its failure. -/
theorem Steady.bind_login {β : Type} {p : Plan (Result α)} (hp : Steady p) (operation : String)
    {f : Result α → Plan (Result β)} (hok : ∀ a, Steady (f (.ok a)))
    (herror : ∀ e, f (.error e) = .done (.error (.during operation e))) : Steady (p.bind f) := by
  refine Plan.Agree.bind hp fun r r' hr => ?_
  cases hr with
  | ok a => exact hok a
  | error h =>
    rw [herror, herror]
    exact .done (.error (h.during _ _))

theorem steady_userKey (token : String) (request : Key) : Steady (s.userKey now token request) := by
  refine (steady_login s now _ token).bind_login "issue user key" (fun identity => ?_) fun e => rfl
  refine .freshId fun r r' hr => ?_
  cases hr with
  | error h => exact .done (.error (h.during _ _))
  | ok id =>
    refine .save fun r r' hr => ?_
    cases hr with
    | error h => exact .done (.error (h.during _ _))
    | ok saved => exact .record (steady_done _)

theorem steady_issue (issuer : String) (request : Key) : Steady (s.issue now issuer request) := by
  unfold issue
  split
  · exact steady_done _
  · split
    · split
      · exact steady_done _
      · exact steady_sessionKey s _ _ _
    · exact (steady_login s now _ issuer).bind_login "issue reset key"
        (fun identity => steady_sessionKey s _ _ _) fun e => rfl
    · exact steady_userKey s now _ _

theorem steady_revoke (token id : String) : Steady (s.revoke now token id) := by
  unfold revoke
  split
  · exact steady_done _
  · refine (steady_login s now _ token).bind_login "revoke key" (fun identity => ?_) fun e => rfl
    refine .remove fun r r' hr => ?_
    cases hr with
    | error h => exact .done (.error (h.during _ _))
    | ok => exact .record (steady_done _)

theorem steady_retrieve (token id : String) : Steady (s.retrieve now token id) := by
  unfold retrieve
  split
  · exact steady_done _
  · refine (steady_login s now _ token).bind_login "retrieve key" (fun identity => ?_) fun e => rfl
    refine .retrieve fun r r' hr => ?_
    cases hr with
    | error h => exact .done (.error (h.during _ _))
    | ok key =>
      dsimp only
      split
      · exact steady_removeExpired (.record (steady_done _)) _ _
      · exact .record (steady_done _)

end KeyService

/-! ## The endpoints -/

namespace Http

open KeyService (Steady)

variable {s : KeyService} {now : Instant} {r : Request}

/-- The plan gives the same answer on collaborators that differ at most in what failures say. -/
def SameAnswer (p : Plan Response) : Prop := Plan.Agree Eq p p

theorem sameAnswer_done (answer : Response) : SameAnswer (.done answer) := .done rfl

/-- Failures of one class are answered alike, and reach the operator alike. -/
theorem agree_failed (h : e.Alike e') : Plan.Agree Eq (failed e) (failed e') := by
  have hanswer := ofFailure_eq_iff.mpr h
  have hstatus : statusOf e.kind = statusOf e'.kind := congrArg Response.status hanswer
  have hfault : isServerFault e = isServerFault e' := by
    rw [isServerFault, isServerFault, hstatus]
  rw [failed, failed, hanswer, hfault]
  split
  · exact .notify (.done rfl)
  · exact .done rfl

theorem sameAnswer_reply {α : Type} {p : Plan (Result α)} (hp : Steady p)
    {f : Result α → Plan Response} (hok : ∀ a, SameAnswer (f (.ok a)))
    (herror : ∀ e, f (.error e) = failed e) : SameAnswer (p >>= f) := by
  refine Plan.Agree.bind hp fun result result' hresult => ?_
  cases hresult with
  | ok a => exact hok a
  | error h =>
    rw [herror, herror]
    exact agree_failed h

theorem sameAnswer_withId {id : List Char} {answer : String → Plan Response}
    (h : ∀ id, SameAnswer (answer id)) : SameAnswer (withId id answer) := by
  unfold withId
  split
  · exact h _
  · exact sameAnswer_done _

theorem sameAnswer_withToken {answer : String → Plan Response}
    (h : ∀ token, SameAnswer (answer token)) : SameAnswer (withToken r answer) := by
  unfold withToken
  split
  · exact sameAnswer_done _
  split
  · exact sameAnswer_done _
  split
  · exact h _
  · exact sameAnswer_done _

theorem sameAnswer_issueKey (credential : String) (body : List UInt8) :
    SameAnswer (issueKey s now credential body) := by
  unfold issueKey
  split
  · exact sameAnswer_done _
  split
  · exact sameAnswer_done _
  · exact sameAnswer_reply (KeyService.steady_issue s now _ _) (fun _ => sameAnswer_done _)
      fun _ => rfl

theorem sameAnswer_answer (route : Route) (method : Method) :
    SameAnswer (route.answer s now r method) := by
  unfold Route.answer
  split
  · split
    · exact sameAnswer_done _
    · exact sameAnswer_issueKey _ _
  · exact sameAnswer_withId fun id =>
      sameAnswer_reply (KeyService.steady_retrieve s now _ id) (fun _ => sameAnswer_done _)
        fun _ => rfl
  · exact sameAnswer_withId fun id =>
      sameAnswer_reply (KeyService.steady_revoke s now _ id) (fun _ => sameAnswer_done _)
        fun _ => rfl
  · exact sameAnswer_withToken fun token =>
      sameAnswer_reply (KeyService.steady_identify s now token) (fun _ => sameAnswer_done _)
        fun _ => rfl
  · exact sameAnswer_done _
  · exact sameAnswer_done _

theorem sameAnswer_respond (s : KeyService) (now : Instant) (r : Request) :
    SameAnswer (respond s now r) := by
  unfold respond
  split
  · exact sameAnswer_done _
  next route _ =>
  split
  · refine Plan.Agree.bind (sameAnswer_answer route .get) fun answer answer' hanswer => ?_
    exact .done (congrArg Response.withoutBody hanswer)
  · exact sameAnswer_answer route r.method

/-- The two answers that say that something was wrong and not what. They come without their bodies
where none was asked for. -/
def Discreet (answer : Response) : Prop :=
  (answer.status = 403 → answer = forbidden ∨ answer = forbidden.withoutBody) ∧
    (500 ≤ answer.status → answer = internalError ∨ answer = internalError.withoutBody)

theorem discreet_ofFailure (e : Failure) : Discreet (.ofFailure e) := by
  constructor
  · intro hstatus
    exact .inl (ofFailure_of_unauthorized (statusOf_eq_forbidden_iff.mp hstatus))
  · intro hstatus
    exact .inl (ofFailure_of_serverFault hstatus)

theorem Discreet.withoutBody {answer : Response} (h : Discreet answer) :
    Discreet answer.withoutBody := by
  constructor
  · intro hstatus
    rcases h.1 hstatus with rfl | rfl
    · exact .inr rfl
    · exact .inr rfl
  · intro hstatus
    rcases h.2 hstatus with rfl | rfl
    · exact .inr rfl
    · exact .inr rfl

theorem common_discreet : Common Discreet where
  failure := discreet_ofFailure
  plain answer hstatus hfault :=
    ⟨fun hforbidden => absurd (by simp [hforbidden]) hstatus, fun h => absurd hfault (by omega)⟩

theorem always_discreet (s : KeyService) (now : Instant) (r : Request) :
    Plan.Always Discreet (respond s now r) := by
  refine always_respond common_discreet (fun key => ?_) fun answer h => h.withoutBody
  exact ⟨fun hstatus => absurd hstatus (by simp [issued]),
    fun hstatus => absurd hstatus (by simp [issued])⟩

end Http

/-! ## The gateway -/

namespace Gateway

open Http (Response Request)

/-- The answers to some requests, one after the other, each at its own time. -/
def answers (g : Gateway) : Plan.Backend → List (Instant × Request) → List Response
  | _, [] => []
  | b, (now, r) :: rest => (g.answer now r b).1 :: g.answers (g.answer now r b).2.1 rest

variable {g : Gateway} {b b' : Plan.Backend}

/-- One request is answered alike, and leaves backends that are alike. -/
theorem answer_alike (hb : b.Alike b') (now : Instant) (r : Request) :
    (g.answer now r b).1 = (g.answer now r b').1 ∧
      (g.answer now r b).2.1.Alike (g.answer now r b').2.1 := by
  obtain ⟨hanswer, hafter⟩ := (Http.sameAnswer_respond g.keys now r).run hb
  unfold answer
  generalize (Http.respond g.keys now r).run b = run at *
  generalize (Http.respond g.keys now r).run b' = run' at *
  obtain ⟨answer, after, trail⟩ := run
  obtain ⟨answer', after', trail'⟩ := run'
  cases hanswer with
  | some h => exact ⟨h, hafter⟩
  | none => exact ⟨rfl, hb⟩

theorem answers_eq (hb : b.Alike b') (requests : List (Instant × Request)) :
    g.answers b requests = g.answers b' requests := by
  induction requests generalizing b b' with
  | nil => rfl
  | cons request rest ih =>
    obtain ⟨hanswer, hafter⟩ := answer_alike (g := g) hb request.1 request.2
    rw [answers, answers, hanswer, ih hafter]

/-- **Failures tell clients no more than their class.** All rejections have one answer, whatever the
reason and whatever is behind it, and so have all faults of the gateway. Any other failure is
answered by what it is at its root, however many operations are named around it; there two failures
have the same answer only if they are the same. So where the store or the source of ids fails with
other failures of the same classes, every client gets the same answers for as long as it goes on
asking. And no answer of the endpoints tells of a rejection or a fault but in the one way that all
are told of. -/
theorem failures_tell_their_class :
    (∀ e e' : Failure,
      (e.kind = .unauthorized → e'.kind = .unauthorized →
        Response.ofFailure e = .ofFailure e' ∧ (Response.ofFailure e).status = 403) ∧
      (500 ≤ (Response.ofFailure e).status → 500 ≤ (Response.ofFailure e').status →
        Response.ofFailure e = .ofFailure e') ∧
      (e.root = e'.root → Response.ofFailure e = .ofFailure e') ∧
      (Response.ofFailure e = .ofFailure e' → e.Alike e')) ∧
    (∀ (operations : List String) (e : Failure),
      Response.ofFailure (Failure.duringAll operations e) = .ofFailure e) ∧
    (∀ (g : Gateway) (b b' : Plan.Backend), b.Alike b' → ∀ requests,
      g.answers b requests = g.answers b' requests) ∧
    ∀ (s : KeyService) (now : Instant) (r : Request) (b : Plan.Backend) (answer : Response),
      ((Http.respond s now r).run b).1 = some answer → Http.Discreet answer := by
  refine ⟨fun e e' => ⟨?_, ?_, ?_, Http.ofFailure_eq_iff.mp⟩, ?_, ?_, ?_⟩
  · intro h h'
    exact ⟨Http.ofFailure_eq_iff.mpr (.rejections h h'), Http.statusOf_eq_forbidden_iff.mpr h⟩
  · intro h h'
    exact Http.ofFailure_eq_iff.mpr (.serverFaults h h')
  · intro h
    exact Http.ofFailure_eq_iff.mpr (.sameRoot h)
  · intro operations e
    exact Http.ofFailure_eq_iff.mpr (Failure.alike_duringAll operations e)
  · intro g b b' hb requests
    exact answers_eq hb requests
  · intro s now r b answer hanswer
    exact (Http.always_discreet s now r).run hanswer

/-- Two backends out of order, each with a text of its own for the call that fails. -/
theorem outages_look_the_same :
    let g : Gateway := ⟨.standard "secret", fun _ _ => .ok "thing", { broker := { depth := 1 } }, 1⟩
    let refused : Failure := .remote "pool at 10.0.0.7 refused"
    let full : Failure := .during "flush" (.io "disk full")
    let b : Plan.Backend := { vault := .empty, outage := { save := some refused }, ids := [.ok "k"] }
    let b' : Plan.Backend := { vault := .empty, outage := { save := some full }, ids := [.ok "k"] }
    let requests : List (Instant × Request) := [
      (.ofParts 1704067200 1, ⟨.post, "/keys", [("authorization", "Bearer x")], []⟩),
      (.ofParts 1704067201 1, ⟨.delete, "/keys/k", [], []⟩)]
    g.answers b requests = g.answers b' requests ∧ Response.ofFailure refused = .ofFailure full ∧
      Response.ofFailure (.unauthorized .badSignature) =
        .ofFailure (.during "issue user key" (.denied .expired refused)) := by
  intro g refused full b b' requests
  obtain ⟨hpair, -, hanswers, -⟩ := failures_tell_their_class
  have hfault : refused.Alike full := .serverFaults (Nat.le_refl 500) (Nat.le_refl 500)
  have hb : b.Alike b' := ⟨rfl, .some hfault, .none, .none, .cons (.ok "k") .nil⟩
  exact ⟨hanswers g b b' hb requests, (hpair _ _).2.1 (Nat.le_refl 500) (Nat.le_refl 500),
    ((hpair _ _).1 rfl rfl).1⟩

end Gateway

end Gatehouse
