import Gatehouse.Keys.Plan

/-!
Runs of a plan against any collaborators. `Plan.Exec` lists what a plan asks, with whatever answer
comes: no store, no source of ids and no outage is fixed. A run on a backend is one of these runs
(`exec_run`), and a plan followed by another runs as the first and then the second (`Exec.bind`,
`Exec.of_bind`).
-/

namespace Gatehouse

/-- One thing that a plan asks of a collaborator or tells it, with the answer. -/
inductive Exchange where
  | save (key : Key) (answer : Except Failure String)
  | retrieve (issuer id : String) (answer : Except Failure Key)
  | remove (issuer id : String) (answer : Except Failure Unit)
  | freshId (answer : Except Failure String)
  | record (event : AuditEvent)
  | notify (notice : Notice)

namespace Exchange

/-- The call to the store, if this is one. -/
def call? : Exchange → Option StoreCall
  | save key _ => some (.save key.issuer key.id)
  | retrieve issuer id _ => some (.retrieve issuer id)
  | remove issuer id _ => some (.remove issuer id)
  | _ => none

def event? : Exchange → Option AuditEvent
  | record event => some event
  | _ => none

def notice? : Exchange → Option Notice
  | notify notice => some notice
  | _ => none

end Exchange

namespace Plan

variable {α β : Type}

/-- A whole run of a plan: what passes between it and its collaborators, and the result. Without a
result the operation has crashed. -/
inductive Exec : Plan α → List Exchange → Option α → Prop
  | done (a : α) : Exec (.done a) [] (some a)
  | crash : Exec .crash [] none
  | save {key : Key} {next} {answer} {trace} {result} (h : Exec (next answer) trace result) :
    Exec (.save key next) (.save key answer :: trace) result
  | retrieve {issuer id : String} {next} {answer} {trace} {result}
    (h : Exec (next answer) trace result) :
    Exec (.retrieve issuer id next) (.retrieve issuer id answer :: trace) result
  | remove {issuer id : String} {next} {answer} {trace} {result}
    (h : Exec (next answer) trace result) :
    Exec (.remove issuer id next) (.remove issuer id answer :: trace) result
  | freshId {next} {answer} {trace} {result} (h : Exec (next answer) trace result) :
    Exec (.freshId next) (.freshId answer :: trace) result
  | record {event : AuditEvent} {next} {trace} {result} (h : Exec next trace result) :
    Exec (.record event next) (.record event :: trace) result
  | notify {notice : Notice} {next} {trace} {result} (h : Exec next trace result) :
    Exec (.notify notice next) (.notify notice :: trace) result

@[simp] theorem exec_done_iff {a : α} {trace : List Exchange} {result : Option α} :
    Exec (.done a) trace result ↔ trace = [] ∧ result = some a := by
  constructor
  · intro h
    cases h
    exact ⟨rfl, rfl⟩
  · rintro ⟨rfl, rfl⟩
    exact .done a

theorem exec_record_iff {event : AuditEvent} {next : Plan α} {trace : List Exchange}
    {result : Option α} :
    Exec (.record event next) trace result ↔
      ∃ rest, trace = .record event :: rest ∧ Exec next rest result := by
  constructor
  · intro h
    cases h with
    | record h => exact ⟨_, rfl, h⟩
  · rintro ⟨rest, rfl, h⟩
    exact .record h

/-! ## One plan after another -/

@[simp] theorem bind_eq (p : Plan α) (f : α → Plan β) : p >>= f = p.bind f := rfl

@[simp] theorem pure_eq (a : α) : (pure a : Plan α) = .done a := rfl

theorem Exec.bind {p : Plan α} {f : α → Plan β} {first rest : List Exchange} {a : α}
    {result : Option β} (hp : Exec p first (some a)) (hf : Exec (f a) rest result) :
    Exec (p.bind f) (first ++ rest) result := by
  generalize hr : some a = r at hp
  induction hp with
  | done a' =>
    cases hr
    exact hf
  | crash => cases hr
  | save _ ih => exact .save (ih hr)
  | retrieve _ ih => exact .retrieve (ih hr)
  | remove _ ih => exact .remove (ih hr)
  | freshId _ ih => exact .freshId (ih hr)
  | record _ ih => exact .record (ih hr)
  | notify _ ih => exact .notify (ih hr)

theorem Exec.of_bind {p : Plan α} {f : α → Plan β} {trace : List Exchange} {result : Option β}
    (h : Exec (p.bind f) trace result) :
    (∃ a first rest, trace = first ++ rest ∧ Exec p first (some a) ∧ Exec (f a) rest result) ∨
      (Exec p trace none ∧ result = none) := by
  induction p generalizing trace with
  | done a => exact .inl ⟨a, [], trace, rfl, .done a, h⟩
  | crash =>
    cases h
    exact .inr ⟨.crash, rfl⟩
  | save key next ih =>
    cases h with
    | save h =>
      rcases ih _ h with ⟨a, first, rest, rfl, hp, hf⟩ | ⟨hp, hr⟩
      · exact .inl ⟨a, _, rest, rfl, .save hp, hf⟩
      · exact .inr ⟨.save hp, hr⟩
  | retrieve issuer id next ih =>
    cases h with
    | retrieve h =>
      rcases ih _ h with ⟨a, first, rest, rfl, hp, hf⟩ | ⟨hp, hr⟩
      · exact .inl ⟨a, _, rest, rfl, .retrieve hp, hf⟩
      · exact .inr ⟨.retrieve hp, hr⟩
  | remove issuer id next ih =>
    cases h with
    | remove h =>
      rcases ih _ h with ⟨a, first, rest, rfl, hp, hf⟩ | ⟨hp, hr⟩
      · exact .inl ⟨a, _, rest, rfl, .remove hp, hf⟩
      · exact .inr ⟨.remove hp, hr⟩
  | freshId next ih =>
    cases h with
    | freshId h =>
      rcases ih _ h with ⟨a, first, rest, rfl, hp, hf⟩ | ⟨hp, hr⟩
      · exact .inl ⟨a, _, rest, rfl, .freshId hp, hf⟩
      · exact .inr ⟨.freshId hp, hr⟩
  | record event next ih =>
    cases h with
    | record h =>
      rcases ih h with ⟨a, first, rest, rfl, hp, hf⟩ | ⟨hp, hr⟩
      · exact .inl ⟨a, _, rest, rfl, .record hp, hf⟩
      · exact .inr ⟨.record hp, hr⟩
  | notify notice next ih =>
    cases h with
    | notify h =>
      rcases ih h with ⟨a, first, rest, rfl, hp, hf⟩ | ⟨hp, hr⟩
      · exact .inl ⟨a, _, rest, rfl, .notify hp, hf⟩
      · exact .inr ⟨.notify hp, hr⟩

/-- A property of what is asked, one exchange at a time, holds of a plan followed by others if it
holds of each. -/
theorem forall_exchange_bind {P : Exchange → Prop} {p : Plan α} {f : α → Plan β}
    (hp : ∀ trace result, Exec p trace result → ∀ x ∈ trace, P x)
    (hf : ∀ a trace result, Exec (f a) trace result → ∀ x ∈ trace, P x)
    {trace : List Exchange} {result : Option β} (h : Exec (p.bind f) trace result) :
    ∀ x ∈ trace, P x := by
  rcases h.of_bind with ⟨a, first, rest, rfl, hfirst, hrest⟩ | ⟨hfirst, -⟩
  · intro x hx
    rcases List.mem_append.mp hx with hx | hx
    · exact hp _ _ hfirst x hx
    · exact hf a _ _ hrest x hx
  · exact hp _ _ hfirst

/-! ## What a plan ends in -/

/-- Whatever its collaborators answer, the plan ends in such a result, if it ends in one. -/
def Always (P : α → Prop) (p : Plan α) : Prop := ∀ trace a, Exec p trace (some a) → P a

theorem always_done {P : α → Prop} {a : α} (h : P a) : Always P (.done a) := by
  intro trace a' hexec
  obtain ⟨-, heq⟩ := exec_done_iff.mp hexec
  cases heq
  exact h

theorem Always.notify {P : α → Prop} {p : Plan α} (h : Always P p) (notice : Notice) :
    Always P (.notify notice p) := by
  intro trace a hexec
  cases hexec with
  | notify hexec => exact h _ _ hexec

theorem Always.bind {Q : α → Prop} {P : β → Prop} {p : Plan α} {f : α → Plan β} (hp : Always Q p)
    (hf : ∀ a, Q a → Always P (f a)) : Always P (p.bind f) := by
  intro trace b hexec
  rcases hexec.of_bind with ⟨a, first, rest, -, hfirst, hrest⟩ | ⟨-, hnone⟩
  · exact hf a (hp first a hfirst) rest b hrest
  · cases hnone

/-! ## Runs on a backend -/

/-- What passes in a run on a backend. -/
def exchanges : Plan α → Backend → List Exchange
  | done _, _ => []
  | crash, _ => []
  | save key next, b => .save key (b.save key).1 :: (next (b.save key).1).exchanges (b.save key).2
  | retrieve issuer id next, b =>
    .retrieve issuer id (b.retrieve issuer id) :: (next (b.retrieve issuer id)).exchanges b
  | remove issuer id next, b =>
    .remove issuer id (b.remove issuer id).1 ::
      (next (b.remove issuer id).1).exchanges (b.remove issuer id).2
  | freshId next, b => .freshId b.freshId.1 :: (next b.freshId.1).exchanges b.freshId.2
  | record event next, b => .record event :: next.exchanges b
  | notify notice next, b => .notify notice :: next.exchanges b

/-- A run on a backend is a run, and its trail is what passed in it. -/
theorem exec_run (p : Plan α) (b : Backend) :
    Exec p (p.exchanges b) (p.run b).1 ∧
      (p.run b).2.2.calls = (p.exchanges b).filterMap Exchange.call? ∧
      (p.run b).2.2.events = (p.exchanges b).filterMap Exchange.event? ∧
      (p.run b).2.2.notices = (p.exchanges b).filterMap Exchange.notice? := by
  induction p generalizing b with
  | done a => exact ⟨.done a, rfl, rfl, rfl⟩
  | crash => exact ⟨.crash, rfl, rfl, rfl⟩
  | save key next ih =>
    obtain ⟨h, hc, he, hn⟩ := ih (b.save key).1 (b.save key).2
    exact ⟨.save h, congrArg _ hc, he, hn⟩
  | retrieve issuer id next ih =>
    obtain ⟨h, hc, he, hn⟩ := ih (b.retrieve issuer id) b
    exact ⟨.retrieve h, congrArg _ hc, he, hn⟩
  | remove issuer id next ih =>
    obtain ⟨h, hc, he, hn⟩ := ih (b.remove issuer id).1 (b.remove issuer id).2
    exact ⟨.remove h, congrArg _ hc, he, hn⟩
  | freshId next ih =>
    obtain ⟨h, hc, he, hn⟩ := ih b.freshId.1 b.freshId.2
    exact ⟨.freshId h, hc, he, hn⟩
  | record event next ih =>
    obtain ⟨h, hc, he, hn⟩ := ih b
    exact ⟨.record h, hc, congrArg _ he, hn⟩
  | notify notice next ih =>
    obtain ⟨h, hc, he, hn⟩ := ih b
    exact ⟨.notify h, hc, he, congrArg _ hn⟩

/-- What ends at once after another plan leaves no trace of its own. -/
theorem run_bind_of_done {p : Plan α} {f : α → Plan β} (b : Backend) {a : α} {c : β}
    (ha : (p.run b).1 = some a) (hf : f a = .done c) :
    (p.bind f).run b = (some c, (p.run b).2) := by
  induction p generalizing b with
  | done a' =>
    cases ha
    rw [bind, hf]
    rfl
  | crash => cases ha
  | save key next ih =>
    have hrest := ih (b.save key).1 (b.save key).2 ha
    simp only [bind, run, hrest]
  | retrieve issuer id next ih =>
    have hrest := ih (b.retrieve issuer id) b ha
    simp only [bind, run, hrest]
  | remove issuer id next ih =>
    have hrest := ih (b.remove issuer id).1 (b.remove issuer id).2 ha
    simp only [bind, run, hrest]
  | freshId next ih =>
    have hrest := ih b.freshId.1 b.freshId.2 ha
    simp only [bind, run, hrest]
  | record event next ih =>
    have hrest := ih b ha
    simp only [bind, run, hrest]
  | notify notice next ih =>
    have hrest := ih b ha
    simp only [bind, run, hrest]

theorem Always.run {P : α → Prop} {p : Plan α} (h : Always P p) {b : Backend} {a : α}
    (ha : (p.run b).1 = some a) : P a :=
  h _ a (ha ▸ (exec_run p b).1)

end Plan
end Gatehouse
