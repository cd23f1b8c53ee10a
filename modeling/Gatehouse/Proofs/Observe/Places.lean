import Gatehouse.Proofs.Observe.Conservation
import Gatehouse.Proofs.Observe.Delivery

/-!
The registry as one flat map. Its two levels show no more than a partial map from pairs of endpoint
and token (`Registry.Shows`): the counts and listings can be read off the map, and no endpoint is
kept without observers. The three calls that change the registry are the three updates of that map,
and how cancellations turn out plays no part in it (`Hub.registry_refines_map`).
-/

namespace Gatehouse

namespace Table

variable {κ ν : Type} [DecidableEq κ]

theorem exists_get?_of_not_isEmpty {t : Table κ ν} (h : t.isEmpty = false) :
    ∃ k v, t.get? k = some v := by
  cases hentries : t.entries with
  | nil => simp [isEmpty, hentries] at h
  | cons entry rest =>
    have hentry : (entry.1, entry.2) ∈ t.entries := by simp [hentries]
    exact ⟨entry.1, entry.2, mem_entries_iff.mp hentry⟩

theorem mem_keys_iff {t : Table κ ν} {k : κ} : k ∈ t.keys ↔ ∃ v, t.get? k = some v := by
  constructor
  · intro h
    obtain ⟨⟨k', v⟩, hentry, rfl⟩ := List.mem_map.mp h
    exact ⟨v, mem_entries_iff.mp hentry⟩
  · rintro ⟨v, hv⟩
    exact List.mem_map.mpr ⟨(k, v), mem_entries_iff.mpr hv, rfl⟩

end Table

namespace Observe

/-! ## The map, and what the registry shows of it -/

/-- Who stands where: a partial map from pairs of endpoint and token. -/
abbrev Places := String → String → Option ObserverId

namespace Places

def empty : Places := fun _ _ => none

def put (p : Places) (endpoint token : String) (o : ObserverId) : Places := fun e t =>
  if e = endpoint ∧ t = token then some o else p e t

def erase (p : Places) (endpoint token : String) : Places := fun e t =>
  if e = endpoint ∧ t = token then none else p e t

end Places

namespace Registry

/-- No endpoint is kept without observers. -/
def Tidy (r : Registry) : Prop :=
  ∀ e table, (e, table) ∈ r.endpoints.entries → table.isEmpty = false

/-- Everything that can be asked of the registry is as the map says. -/
structure Shows (r : Registry) (p : Places) : Prop where
  get?_eq : ∀ e t, r.get? e t = p e t
  tidy : r.Tidy
  /-- The size counts the endpoints that somebody observes. -/
  size_eq : ∃ es : List String, es.Nodup ∧ (∀ e, e ∈ es ↔ ∃ t o, p e t = some o) ∧
    r.size = es.length
  isEmpty_iff : r.isEmpty = true ↔ ∀ e t, p e t = none
  /-- The observers of an endpoint are those of its pairs, each pair once. -/
  listing : ∀ e, ∃ pairs : List (String × ObserverId), (pairs.map Prod.fst).Nodup ∧
    (∀ t o, (t, o) ∈ pairs ↔ p e t = some o) ∧ r.observers e = pairs.map Prod.snd ∧
    r.count e = pairs.length

theorem tidy_empty : empty.Tidy := by
  intro e table h
  cases h

variable {r : Registry} (endpoint token : String)

/-- An endpoint is there if and only if somebody observes it. -/
theorem Tidy.mem_keys_iff (hr : r.Tidy) {e : String} :
    e ∈ r.endpoints.keys ↔ ∃ t o, r.get? e t = some o := by
  rw [Table.mem_keys_iff]
  constructor
  · rintro ⟨table, htable⟩
    obtain ⟨t, o, ho⟩ :=
      Table.exists_get?_of_not_isEmpty (hr e table (Table.mem_entries_iff.mpr htable))
    exact ⟨t, o, by rw [get?, tableAt, htable, Option.getD_some, ho]⟩
  · rintro ⟨t, o, ho⟩
    rw [get?, tableAt] at ho
    cases htable : r.endpoints.get? e with
    | some table => exact ⟨table, rfl⟩
    | none =>
      rw [htable] at ho
      cases ho

/-- A tidy registry shows its own content. -/
theorem Tidy.shows (hr : r.Tidy) : r.Shows r.get? where
  get?_eq _ _ := rfl
  tidy := hr
  size_eq := ⟨r.endpoints.keys, r.endpoints.nodup, fun _ => hr.mem_keys_iff, by
    simp [size, Table.size, Table.keys]⟩
  isEmpty_iff := by
    have hkeys : r.isEmpty = true ↔ r.endpoints.keys = [] := by
      simp [isEmpty, Table.isEmpty, Table.keys]
    rw [hkeys, List.eq_nil_iff_forall_not_mem]
    simp only [hr.mem_keys_iff, not_exists, Option.eq_none_iff_forall_ne_some, ne_eq]
  listing e := ⟨(r.tableAt e).entries, (r.tableAt e).nodup, fun _ _ => Table.mem_entries_iff, rfl,
    rfl⟩

theorem shows_empty : empty.Shows .empty := tidy_empty.shows

theorem Tidy.insert (hr : r.Tidy) {table : Table String ObserverId} (h : table.isEmpty = false) :
    Tidy ⟨r.endpoints.insert endpoint table⟩ := by
  intro e table' hentry
  have hget := Table.mem_entries_iff.mp hentry
  rw [Table.get?_insert] at hget
  split at hget
  · cases hget
    exact h
  · exact hr e table' (Table.mem_entries_iff.mpr hget)

theorem Tidy.put (hr : r.Tidy) (o : ObserverId) : (r.put endpoint token o).2.Tidy := by
  refine hr.insert endpoint (Bool.eq_false_iff.mpr fun hempty => ?_)
  have hnone := Table.get?_eq_none_of_isEmpty hempty token
  rw [Table.get?_insert_self] at hnone
  cases hnone

/-- The last observer of an endpoint takes the endpoint along. -/
theorem Tidy.erase (hr : r.Tidy) : (r.erase endpoint token).Tidy := by
  unfold Registry.erase
  dsimp only
  split
  · intro e table hentry
    have hget := Table.mem_entries_iff.mp hentry
    rw [Table.get?_erase] at hget
    split at hget
    · cases hget
    · exact hr e table (Table.mem_entries_iff.mpr hget)
  · next hleft => exact hr.insert endpoint (Bool.eq_false_iff.mpr hleft)

theorem Tidy.takeIf (hr : r.Tidy) (test : ObserverId → Bool) :
    (r.takeIf endpoint token test).2.Tidy := by
  unfold Registry.takeIf
  split
  · exact hr
  · split
    · exact hr.erase endpoint token
    · exact hr

end Registry

/-! ## The calls -/

/-- A call that changes the registry. -/
inductive RegistryCall where
  | put (endpoint token : String) (o : ObserverId)
  | remove (endpoint token : String)
  /-- The token is the observer's own. -/
  | removeObserver (endpoint : String) (o : ObserverId)

namespace Places

variable (tokenOf : ObserverId → String) (p : Places)

/-- What a call makes of the map. -/
def after : RegistryCall → Places
  | .put endpoint token o => p.put endpoint token o
  | .remove endpoint token => p.erase endpoint token
  | .removeObserver endpoint o =>
    if p endpoint (tokenOf o) = some o then p.erase endpoint (tokenOf o) else p

/-- Who loses a place by a call, to another observer or to nobody. -/
def left? : RegistryCall → Option ObserverId
  | .put endpoint token _ => p endpoint token
  | .remove endpoint token => p endpoint token
  | .removeObserver endpoint o => (p endpoint (tokenOf o)).filter (· == o)

/-- What some calls make of the map, one after the other. -/
def afterAll (calls : List RegistryCall) : Places := calls.foldl (after tokenOf) p

end Places

namespace Registry

variable (r : Registry) (tokenOf : ObserverId → String)

/-- What a call makes of the registry: who leaves it, and what is left. -/
def after : RegistryCall → Option ObserverId × Registry
  | .put endpoint token o => r.put endpoint token o
  | .remove endpoint token => r.takeIf endpoint token fun _ => true
  | .removeObserver endpoint o => r.takeIf endpoint (tokenOf o) (· == o)

theorem after_fst (c : RegistryCall) : (r.after tokenOf c).1 = Places.left? tokenOf r.get? c := by
  cases c with
  | put endpoint token o => rfl
  | remove endpoint token =>
    show (r.takeIf endpoint token fun _ => true).1 = r.get? endpoint token
    rw [takeIf_fst]
    cases r.get? endpoint token <;> rfl
  | removeObserver endpoint o => exact takeIf_fst r endpoint (tokenOf o) _

theorem get?_after (c : RegistryCall) :
    (r.after tokenOf c).2.get? = Places.after tokenOf r.get? c := by
  funext e t
  cases c with
  | put endpoint token o => exact get?_put r endpoint token e t o
  | remove endpoint token =>
    show (r.takeIf endpoint token fun _ => true).2.get? e t = Places.erase r.get? endpoint token e t
    rw [get?_takeIf, Places.erase]
    -- taking out nobody leaves the place as empty as before
    cases hplace : r.get? endpoint token with
    | some o => simp
    | none =>
      by_cases hsame : e = endpoint ∧ t = token
      · simp [hsame, hplace]
      · simp [hsame]
  | removeObserver endpoint o =>
    show (r.takeIf endpoint (tokenOf o) (· == o)).2.get? e t = _
    rw [get?_takeIf, Places.after]
    by_cases hstands : r.get? endpoint (tokenOf o) = some o
    · simp [hstands, Places.erase]
    · have htest : (r.get? endpoint (tokenOf o)).any (· == o) = false := by
        cases hplace : r.get? endpoint (tokenOf o) with
        | none => rfl
        | some x =>
          rw [hplace, Option.some.injEq] at hstands
          simpa using hstands
      simp [hstands, htest]

theorem Tidy.after {r : Registry} (hr : r.Tidy) (c : RegistryCall) :
    (r.after tokenOf c).2.Tidy := by
  cases c with
  | put endpoint token o => exact hr.put endpoint token o
  | remove endpoint token => exact hr.takeIf endpoint token _
  | removeObserver endpoint o => exact hr.takeIf endpoint (tokenOf o) _

end Registry

namespace Hub

/-- The fault that the next cancellation of an observer meets, if it fails. -/
def cancelFault? (h : Hub) (o : ObserverId) : Option SessionFault :=
  match h.observers[o]?.map Observer.link with
  | some (.device d _) => d.cancelFault (h.cancels o)
  | _ => none

def call (h : Hub) : RegistryCall → Except Failure Unit × Hub
  | .put endpoint token o => h.put endpoint token o
  | .remove endpoint token => h.remove endpoint token
  | .removeObserver endpoint o => h.removeObserver endpoint o

/-- The hub after some calls. -/
def called (h : Hub) (calls : List RegistryCall) : Hub := calls.foldl (fun h c => (h.call c).2) h

variable {h h' : Hub} {c : RegistryCall}

/-- A call changes the registry and then cancels whoever left it. -/
theorem call_eq (h : Hub) (c : RegistryCall) :
    h.call c = { h with registry := (h.registry.after h.tokenOf c).2 }.cancelLeft
      (h.registry.after h.tokenOf c).1 := by
  cases c <;> rfl

theorem registry_call (h : Hub) (c : RegistryCall) :
    (h.call c).2.registry = (h.registry.after h.tokenOf c).2 := by
  rw [call_eq]
  exact (quiet_cancelLeft _ _).registry_eq

theorem tokenOf_call (h : Hub) (c : RegistryCall) : (h.call c).2.tokenOf = h.tokenOf := by
  rw [call_eq]
  funext o
  exact (quiet_cancelLeft { h with registry := (h.registry.after h.tokenOf c).2 } _).tokenOf_eq o

theorem tokenOf_called (h : Hub) (calls : List RegistryCall) :
    (h.called calls).tokenOf = h.tokenOf := by
  induction calls generalizing h with
  | nil => rfl
  | cons c calls ih => exact (ih (h.call c).2).trans (tokenOf_call h c)

theorem observers_length_called (h : Hub) (calls : List RegistryCall) :
    (h.called calls).observers.length = h.observers.length := by
  induction calls generalizing h with
  | nil => rfl
  | cons c calls ih =>
    refine (ih (h.call c).2).trans ?_
    rw [call_eq]
    exact (quiet_cancelLeft _ _).observers_length

/-- A call fails with the cancellation that it makes. -/
theorem cancelLeft_eq_error_iff {left : Option ObserverId} {e : Failure} :
    (h.cancelLeft left).1 = .error e ↔
      ∃ o fault, left = some o ∧ h.cancelFault? o = some fault ∧ e = .unsubscribe fault := by
  cases left with
  | none => simp [cancelLeft]
  | some o =>
    have hresult : (h.cancelLeft (some o)).1 =
        (h.cancelFault? o).elim (.ok ()) fun fault => .error (.unsubscribe fault) := by
      simp only [cancelLeft, cancel, cancelFault?, cancels, count]
      cases hx : h.observers[o]? with
      | none => rfl
      | some x =>
        cases hlink : x.link with
        | session s next => simp [hlink, unsubscribed]
        | device d ended =>
          simp only [Option.map_some, hlink, Option.getD_some]
          cases d.cancelFault x.cancelled with
          | none => rfl
          | some fault => rfl
    rw [hresult]
    cases hfault : h.cancelFault? o with
    | none => simp [hfault]
    | some fault => simp [hfault, eq_comm]

theorem call_eq_error_iff {e : Failure} :
    (h.call c).1 = .error e ↔ ∃ o fault, Places.left? h.tokenOf h.registry.get? c = some o ∧
      h.cancelFault? o = some fault ∧ e = .unsubscribe fault := by
  rw [call_eq, cancelLeft_eq_error_iff, Registry.after_fst]
  rfl

theorem cancels_call {o : ObserverId} (ho : o < h.observers.length) :
    (h.call c).2.cancels o =
      h.cancels o + if Places.left? h.tokenOf h.registry.get? c = some o then 1 else 0 := by
  rw [call_eq, ← Registry.after_fst]
  exact (counted_cancelLeft { h with registry := (h.registry.after h.tokenOf c).2 } _).cancels_eq o
    ho

/-! ## Runs of calls -/

theorem get?_called (h : Hub) (calls : List RegistryCall) :
    (h.called calls).registry.get? = Places.afterAll h.tokenOf h.registry.get? calls := by
  induction calls generalizing h with
  | nil => rfl
  | cons c calls ih =>
    have hrest := ih (h.call c).2
    rw [tokenOf_call, registry_call, Registry.get?_after] at hrest
    exact hrest

theorem tidy_called {h : Hub} (hr : h.registry.Tidy) (calls : List RegistryCall) :
    (h.called calls).registry.Tidy := by
  induction calls generalizing h with
  | nil => exact hr
  | cons c calls ih =>
    refine ih ?_
    rw [registry_call]
    exact hr.after h.tokenOf c

theorem registry_called_eq {h h' : Hub} (hregistry : h'.registry = h.registry)
    (htoken : h'.tokenOf = h.tokenOf) (calls : List RegistryCall) :
    (h'.called calls).registry = (h.called calls).registry := by
  induction calls generalizing h h' with
  | nil => exact hregistry
  | cons c calls ih =>
    refine ih ?_ ?_
    · rw [registry_call, registry_call, hregistry, htoken]
    · rw [tokenOf_call, tokenOf_call, htoken]

/-- **The registry refines a partial map.** A registry that shows a map goes on to show it through
any calls, with any endpoints and tokens: registering overwrites one place, removing empties one, and
removing an observer empties the place under its token if that very observer stands there. Hubs in
which cancellations turn out otherwise have the same registry at the end. Each call cancels once
whoever loses a place by it, and nobody else; it fails if and only if that cancellation does, and
with its fault. -/
theorem registry_refines_map (h : Hub) {p : Places} (hp : h.registry.Shows p)
    (calls : List RegistryCall) :
    (h.called calls).registry.Shows (p.afterAll h.tokenOf calls) ∧
    (∀ h' : Hub, h'.registry = h.registry → h'.tokenOf = h.tokenOf →
      (h'.called calls).registry = (h.called calls).registry) ∧
    ∀ first c later, calls = first ++ c :: later →
      let before := h.called first
      let left := (p.afterAll h.tokenOf first).left? h.tokenOf c
      (∀ o < h.observers.length, (before.call c).2.cancels o =
        before.cancels o + if left = some o then 1 else 0) ∧
      ∀ e, (before.call c).1 = .error e ↔ ∃ o fault, left = some o ∧
        before.cancelFault? o = some fault ∧ e = .unsubscribe fault := by
  have hcontent : h.registry.get? = p := funext fun e => funext fun t => hp.get?_eq e t
  have hget := fun calls => hcontent ▸ get?_called h calls
  refine ⟨?_, fun h' hregistry htoken => registry_called_eq hregistry htoken calls, ?_⟩
  · rw [← hget]
    exact (tidy_called hp.tidy calls).shows
  · intro first c later _ before left
    have hleft : Places.left? before.tokenOf before.registry.get? c = left := by
      rw [tokenOf_called, hget]
    refine ⟨fun o ho => ?_, fun e => ?_⟩
    · rw [← hleft]
      exact cancels_call ((observers_length_called h first).symm ▸ ho)
    · rw [← hleft]
      exact call_eq_error_iff

/-- A device whose cancellation fails is replaced by another one, and then taken out too late. The
replacement is told of the fault, is registered all the same, and stays. -/
theorem replacement_outlives_late_removal :
    let broken : Observer :=
      { token := "t", link := .device { cancelFault := fun _ => some .full } false }
    let sound : Observer := { token := "t", link := .device {} false }
    let h : Hub := { observers := [broken, sound], broker := .ofCapacity 1 }
    let late : RegistryCall := .removeObserver "e" 0
    (((h.called [.put "e" "t" 0]).call (.put "e" "t" 1)).1 = .error (.unsubscribe .full)) ∧
      (h.called [.put "e" "t" 0, .put "e" "t" 1, late]).registry.get? "e" "t" = some 1 ∧
      (∀ e, ((h.called [.put "e" "t" 0, .put "e" "t" 1]).call late).1 ≠ .error e) := by
  intro broken sound h late
  obtain ⟨hshows, -, hcalls⟩ := registry_refines_map h Registry.shows_empty
    [.put "e" "t" 0, .put "e" "t" 1, late]
  refine ⟨?_, ?_, fun e he => ?_⟩
  · exact ((hcalls [.put "e" "t" 0] (.put "e" "t" 1) [late] rfl).2 _).mpr ⟨0, .full, rfl, rfl, rfl⟩
  · exact hshows.get?_eq "e" "t"
  · obtain ⟨o, fault, hleft, -⟩ := ((hcalls [.put "e" "t" 0, .put "e" "t" 1] late [] rfl).2 e).mp he
    cases hleft

end Hub
end Observe
end Gatehouse
