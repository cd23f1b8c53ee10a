import Gatehouse.Proofs.Observe.Run

/-!
Registrations are conserved. An observer may stand at several places of the registry, also under
tokens that are not its own. Whatever ends one of its registrations cancels it once, and nothing else
cancels it: so it was cancelled, or still stands, once for every time that it was put
(`Hub.registrations_conserved`).
-/

namespace Gatehouse

/-! ## Sums over tables -/

namespace Table

variable {κ ν : Type}

/-- What the values of a list of pairs come to. -/
def sum (weight : ν → Nat) : List (κ × ν) → Nat
  | [] => 0
  | (_, v) :: es => weight v + sum weight es

/-- What the values of a table come to. -/
def total (weight : ν → Nat) (t : Table κ ν) : Nat := sum weight t.entries

theorem total_of_isEmpty (weight : ν → Nat) {t : Table κ ν} (h : t.isEmpty = true) :
    t.total weight = 0 := by
  rw [isEmpty, List.isEmpty_iff] at h
  rw [total, h]
  rfl

variable [DecidableEq κ]

theorem sum_put (weight : ν → Nat) (k : κ) (v : ν) (es : List (κ × ν)) :
    sum weight (put k v es) + ((find k es).map weight).getD 0 = sum weight es + weight v := by
  induction es with
  | nil => simp [put, find, sum]
  | cons e es ih =>
    obtain ⟨k', v'⟩ := e
    by_cases hk : k' = k
    · simp only [put, find, sum, hk, if_true, Option.map_some, Option.getD_some]
      omega
    · simp only [put, find, sum, hk, if_false]
      omega

theorem sum_drop (weight : ν → Nat) (k : κ) (es : List (κ × ν)) :
    sum weight (drop k es) + ((find k es).map weight).getD 0 = sum weight es := by
  induction es with
  | nil => simp [drop, find, sum]
  | cons e es ih =>
    obtain ⟨k', v'⟩ := e
    by_cases hk : k' = k
    · simp only [drop, find, sum, hk, if_true, Option.map_some, Option.getD_some]
      omega
    · simp only [drop, find, sum, hk, if_false]
      omega

/-- A value that is put comes in, and the one that it replaces goes. -/
theorem total_insert (weight : ν → Nat) (t : Table κ ν) (k : κ) (v : ν) :
    (t.insert k v).total weight + ((t.get? k).map weight).getD 0 = t.total weight + weight v :=
  sum_put weight k v t.entries

theorem total_erase (weight : ν → Nat) (t : Table κ ν) (k : κ) :
    (t.erase k).total weight + ((t.get? k).map weight).getD 0 = t.total weight :=
  sum_drop weight k t.entries

end Table

namespace Observe

/-! ## How often an observer stands in the registry -/

/-- One, if this is the observer. -/
def tally (o : ObserverId) (stands : Option ObserverId) : Nat := if stands = some o then 1 else 0

theorem tally_some {o i : ObserverId} : tally o (some i) = if i = o then 1 else 0 := by
  simp [tally]

theorem tally_cases (o : ObserverId) (stands : Option ObserverId) :
    stands = some o ∧ tally o stands = 1 ∨ stands ≠ some o ∧ tally o stands = 0 := by
  unfold tally
  split
  · next hstands => exact .inl ⟨hstands, rfl⟩
  · next hstands => exact .inr ⟨hstands, rfl⟩

namespace Registry

variable (r : Registry) (endpoint token : String) (o x : ObserverId)

/-- The number of places at which an observer stands. -/
def holding : Nat := r.endpoints.total (Table.total fun s => tally o (some s))

theorem holding_empty : empty.holding o = 0 := rfl

theorem getD_tally (stands : Option ObserverId) :
    (stands.map fun s => tally o (some s)).getD 0 = tally o stands := by
  cases stands with
  | none => simp [tally]
  | some s => rfl

/-- What an endpoint adds to the sum, registered or not. -/
theorem getD_total (weight : ObserverId → Nat) :
    ((r.endpoints.get? endpoint).map (Table.total weight)).getD 0 =
      (r.tableAt endpoint).total weight := by
  unfold tableAt
  cases r.endpoints.get? endpoint with
  | none => rfl
  | some t => rfl

theorem holding_insert (t : Table String ObserverId) :
    holding ⟨r.endpoints.insert endpoint t⟩ o +
        (r.tableAt endpoint).total (fun s => tally o (some s)) =
      r.holding o + t.total fun s => tally o (some s) := by
  rw [← getD_total]
  exact Table.total_insert _ r.endpoints endpoint t

theorem holding_put :
    (r.put endpoint token x).2.holding o + tally o (r.get? endpoint token) =
      r.holding o + tally o (some x) := by
  have hinner := Table.total_insert (fun s => tally o (some s)) (r.tableAt endpoint) token x
  have houter := r.holding_insert endpoint o ((r.tableAt endpoint).insert token x)
  rw [getD_tally] at hinner
  show holding ⟨r.endpoints.insert endpoint _⟩ o + tally o ((r.tableAt endpoint).get? token) = _
  omega

theorem holding_erase :
    (r.erase endpoint token).holding o + tally o (r.get? endpoint token) = r.holding o := by
  have hinner := Table.total_erase (fun s => tally o (some s)) (r.tableAt endpoint) token
  rw [getD_tally] at hinner
  rw [erase, get?]
  split
  · next hempty =>
    have houter : holding ⟨r.endpoints.erase endpoint⟩ o +
        (r.tableAt endpoint).total (fun s => tally o (some s)) = r.holding o := by
      rw [← getD_total]
      exact Table.total_erase _ r.endpoints endpoint
    rw [Table.total_of_isEmpty _ hempty] at hinner
    omega
  · have houter := r.holding_insert endpoint o ((r.tableAt endpoint).erase token)
    omega

theorem holding_takeIf (test : ObserverId → Bool) :
    (r.takeIf endpoint token test).2.holding o + tally o (r.takeIf endpoint token test).1 =
      r.holding o := by
  unfold takeIf
  split
  · simp [tally]
  · next s hget =>
    split
    · rw [← hget]
      exact holding_erase r endpoint token o
    · simp [tally]

end Registry

/-! ## How often an observer was cancelled -/

namespace Hub

variable {h : Hub} {o i : ObserverId}

/-- How often an observer was cancelled. -/
def cancels (h : Hub) (o : ObserverId) : Nat := h.count Observer.cancelled o

theorem cancels_handle (m : Message) : (h.handle i m).2.cancels o = h.cancels o := by
  rcases handle_cases h i m with ⟨-, hsame⟩ | ⟨x, link, sessions, hx, hchanged⟩
  · rw [hsame]
  · rw [hchanged]
    exact count_set_same (h := h) hx rfl

theorem cancels_finish : (h.finish i).cancels o = h.cancels o := by
  unfold finish
  split
  · rfl
  · next x hx =>
    split
    · rfl
    · exact count_set_same hx rfl

/-- A cancellation counts whether it fails or not. -/
theorem cancels_cancel (ho : o < h.observers.length) :
    (h.cancel i).2.cancels o = h.cancels o + tally o (some i) := by
  unfold cancel
  split
  · next hnone =>
    have hi : i ≠ o := Nat.ne_of_gt (Nat.lt_of_lt_of_le ho (List.getElem?_eq_none_iff.mp hnone))
    rw [tally_some, if_neg hi, Nat.add_zero]
  · next x hx =>
    rw [tally_some]
    split
    · exact count_set hx rfl
    · dsimp only
      split
      · exact count_set hx rfl
      · exact count_set hx rfl

/-- No observer goes, and each was cancelled so much more often. -/
structure Counted (h h' : Hub) (more : ObserverId → Nat) : Prop where
  length_le : h.observers.length ≤ h'.observers.length
  cancels_eq : ∀ o < h.observers.length, h'.cancels o = h.cancels o + more o

theorem Counted.of_same {h' : Hub} (hlength : h'.observers.length = h.observers.length)
    (hcancels : ∀ o, h'.cancels o = h.cancels o) : Counted h h' fun _ => 0 :=
  ⟨Nat.le_of_eq hlength.symm, fun o _ => hcancels o⟩

theorem counted_cancelLeft (h : Hub) (left : Option ObserverId) :
    Counted h (h.cancelLeft left).2 fun o => tally o left := by
  refine ⟨Nat.le_of_eq (quiet_cancelLeft h left).observers_length.symm, fun o ho => ?_⟩
  cases left with
  | none => simp [cancelLeft, tally]
  | some i => exact cancels_cancel ho

end Hub

/-! ## Moves of the registry -/

/-- A call of the registry, a step of a waiter, or what befalls observers and sessions meanwhile. -/
inductive RegistryMove where
  | put (endpoint token : String) (o : ObserverId)
  | remove (endpoint token : String)
  | removeObserver (endpoint : String) (o : ObserverId)
  | watch (endpoint : String) (o : ObserverId)
  /-- A waiter runs, if its observer has ended. -/
  | wake (i : Nat)
  | addObserver (x : Observer)
  | handle (o : ObserverId) (m : Message)
  | finish (o : ObserverId)
  | openSession (capacity : Nat)
  | onSession (s : SessionId) (f : Session → Session)

def RegistryMove.puts (o : ObserverId) : RegistryMove → Bool
  | put _ _ x => x = o
  | _ => false

namespace Hub

def play (h : Hub) : RegistryMove → Hub
  | .put endpoint token o => (h.put endpoint token o).2
  | .remove endpoint token => (h.remove endpoint token).2
  | .removeObserver endpoint o => (h.removeObserver endpoint o).2
  | .watch endpoint o => h.watch endpoint o
  | .wake i => if (h.waiters[i]?).any fun w => h.ended w.2 then (h.wake i).hub else h
  | .addObserver x => (h.addObserver x).2
  | .handle o m => (h.handle o m).2
  | .finish o => h.finish o
  | .openSession capacity => (h.openSession capacity).2
  | .onSession s f => h.onSession s f

def playAll (h : Hub) (moves : List RegistryMove) : Hub := moves.foldl play h

/-- What a move does to the registry and to the counts of cancellations. -/
inductive Shift (h h' : Hub) : RegistryMove → Prop
  | filled {endpoint token : String} {x : ObserverId}
    (hregistry : h'.registry = (h.registry.put endpoint token x).2)
    (hcounted : Counted h h' fun o => tally o (h.registry.get? endpoint token)) :
    Shift h h' (.put endpoint token x)
  | taken {m : RegistryMove} {endpoint token : String} {test : ObserverId → Bool}
    (hputs : ∀ o, m.puts o = false)
    (hregistry : h'.registry = (h.registry.takeIf endpoint token test).2)
    (hcounted : Counted h h' fun o => tally o (h.registry.takeIf endpoint token test).1) :
    Shift h h' m
  | still {m : RegistryMove} (hputs : ∀ o, m.puts o = false) (hregistry : h'.registry = h.registry)
    (hcounted : Counted h h' fun _ => 0) : Shift h h' m

theorem shift_put (h : Hub) (endpoint token : String) (x : ObserverId) :
    Shift h (h.put endpoint token x).2 (.put endpoint token x) := by
  have hcounted := counted_cancelLeft { h with registry := (h.registry.put endpoint token x).2 }
    (h.registry.get? endpoint token)
  exact .filled (quiet_put h endpoint token x).registry_eq ⟨hcounted.length_le, hcounted.cancels_eq⟩

/-- A removal at a place, whatever the waiters are by then. -/
theorem shift_removeIf (h : Hub) {m : RegistryMove} (hputs : ∀ o, m.puts o = false)
    (waiters : List (String × ObserverId)) (endpoint token : String) (test : ObserverId → Bool) :
    Shift h ({ h with waiters := waiters }.removeIf endpoint token test).2 m := by
  have hquiet := quiet_removeIf { h with waiters := waiters } endpoint token test
  have hcounted := counted_cancelLeft
    { h with
      waiters := waiters
      registry := (h.registry.takeIf endpoint token test).2 }
    (h.registry.takeIf endpoint token test).1
  exact .taken hputs hquiet.registry_eq ⟨hcounted.length_le, hcounted.cancels_eq⟩

theorem shift_play (h : Hub) (m : RegistryMove) : Shift h (h.play m) m := by
  cases m with
  | put endpoint token x => exact shift_put h endpoint token x
  | remove endpoint token =>
    exact shift_removeIf h (fun _ => rfl) h.waiters endpoint token fun _ => true
  | removeObserver endpoint x =>
    exact shift_removeIf h (fun _ => rfl) h.waiters endpoint (h.tokenOf x) (· == x)
  | wake i =>
    rw [play]
    split
    · next hready =>
      obtain ⟨⟨endpoint, x⟩, hi, -⟩ := (Option.any_eq_true _ _).mp hready
      rw [wake_hub h endpoint hi]
      exact shift_removeIf h (fun _ => rfl) (h.waiters.eraseIdx i) endpoint (h.tokenOf x) (· == x)
    · exact .still (fun _ => rfl) rfl (.of_same rfl fun _ => rfl)
  | addObserver x =>
    refine .still (fun _ => rfl) rfl ⟨?_, fun o ho => ?_⟩
    · show h.observers.length ≤ (h.observers ++ [x]).length
      rw [List.length_append]
      exact Nat.le_add_right _ _
    · show ((h.observers ++ [x])[o]?.map Observer.cancelled).getD 0 = _
      rw [List.getElem?_append_left ho]
      rfl
  | handle x m =>
    have hquiet := quiet_handle h x m
    exact .still (fun _ => rfl) hquiet.registry_eq
      (.of_same hquiet.observers_length fun _ => cancels_handle m)
  | finish x =>
    have hquiet := quiet_finish h x
    exact .still (fun _ => rfl) hquiet.registry_eq
      (.of_same hquiet.observers_length fun _ => cancels_finish)
  | watch | openSession | onSession =>
    exact .still (fun _ => rfl) rfl (.of_same rfl fun _ => rfl)

/-! ## The balance -/

/-- A registration of the observer ends with the move: it is gone from its place, or the observer
was put there anew. -/
def Ends (h : Hub) (m : RegistryMove) (o : ObserverId) : Prop :=
  ∃ endpoint token, h.registry.get? endpoint token = some o ∧
    ((h.play m).registry.get? endpoint token ≠ some o ∨ m = .put endpoint token o)

variable {h h' : Hub} {m : RegistryMove} {o : ObserverId}

theorem observer_play (h : Hub) (m : RegistryMove) (ho : o < h.observers.length) :
    o < (h.play m).observers.length := by
  have hshift := shift_play h m
  cases hshift with
  | filled _ hcounted => exact Nat.lt_of_lt_of_le ho hcounted.length_le
  | taken _ _ hcounted => exact Nat.lt_of_lt_of_le ho hcounted.length_le
  | still _ _ hcounted => exact Nat.lt_of_lt_of_le ho hcounted.length_le

theorem observer_playAll (h : Hub) (moves : List RegistryMove) (ho : o < h.observers.length) :
    o < (h.playAll moves).observers.length := by
  induction moves generalizing h with
  | nil => exact ho
  | cons m moves ih => exact ih (h.play m) (observer_play h m ho)

/-- A move keeps the balance of every observer. -/
theorem Shift.balance (hm : Shift h h' m) (ho : o < h.observers.length) :
    h.cancels o + h.registry.holding o + (if m.puts o then 1 else 0) =
      h'.cancels o + h'.registry.holding o := by
  cases hm with
  | @filled endpoint token x hregistry hcounted =>
    have hholding := h.registry.holding_put endpoint token o x
    have hputs : (if (RegistryMove.put endpoint token x).puts o then 1 else 0) = tally o (some x) := by
      simp [RegistryMove.puts, tally]
    rw [hputs, hregistry, hcounted.cancels_eq o ho]
    omega
  | @taken _ endpoint token test hputs hregistry hcounted =>
    have hholding := h.registry.holding_takeIf endpoint token o test
    rw [hputs, hregistry, hcounted.cancels_eq o ho]
    simp only [Bool.false_eq_true, if_false]
    omega
  | still hputs hregistry hcounted =>
    rw [hputs, hregistry, hcounted.cancels_eq o ho]
    rfl

theorem balance_playAll (h : Hub) (moves : List RegistryMove) (ho : o < h.observers.length) :
    h.cancels o + h.registry.holding o + moves.countP (RegistryMove.puts o) =
      (h.playAll moves).cancels o + (h.playAll moves).registry.holding o := by
  induction moves generalizing h with
  | nil => rfl
  | cons m moves ih =>
    have hstep := (shift_play h m).balance ho
    have hrest := ih (h.play m) (observer_play h m ho)
    rw [List.countP_cons]
    show _ = ((h.play m).playAll moves).cancels o + ((h.play m).playAll moves).registry.holding o
    omega

/-- A move that ends a registration of an observer cancels it once; no other move does. -/
theorem cancels_play (ho : o < h.observers.length) :
    Ends h m o ∧ (h.play m).cancels o = h.cancels o + 1 ∨
      ¬ Ends h m o ∧ (h.play m).cancels o = h.cancels o := by
  have hshift := shift_play h m
  unfold Ends
  generalize h.play m = h' at hshift
  cases hshift with
  | @filled endpoint token x hregistry hcounted =>
    have hcancels := hcounted.cancels_eq o ho
    simp only [hregistry, Registry.get?_put]
    rcases tally_cases o (h.registry.get? endpoint token) with ⟨hstands, htally⟩ | ⟨hstands, htally⟩
    · rw [htally] at hcancels
      refine .inl ⟨⟨endpoint, token, hstands, ?_⟩, hcancels⟩
      by_cases hx : x = o
      · exact .inr (by rw [hx])
      · exact .inl (by simpa using hx)
    · rw [htally] at hcancels
      refine .inr ⟨?_, hcancels⟩
      rintro ⟨endpoint', token', hget, hgone | hput⟩
      · rw [if_neg] at hgone
        · exact hgone hget
        · rintro ⟨rfl, rfl⟩
          exact hstands hget
      · cases hput
        exact hstands hget
  | @taken _ endpoint token test hputs hregistry hcounted =>
    have hcancels := hcounted.cancels_eq o ho
    rw [Registry.takeIf_fst] at hcancels
    simp only [hregistry, Registry.get?_takeIf]
    rcases tally_cases o ((h.registry.get? endpoint token).filter test) with
      ⟨hleft, htally⟩ | ⟨hleft, htally⟩
    · obtain ⟨hget, htest⟩ := Option.filter_eq_some_iff.mp hleft
      rw [htally] at hcancels
      exact .inl ⟨⟨endpoint, token, hget, .inl (by simp [hget, htest])⟩, hcancels⟩
    · rw [htally] at hcancels
      refine .inr ⟨?_, hcancels⟩
      rintro ⟨endpoint', token', hget, hgone | rfl⟩
      · split at hgone
        · next hplace =>
          obtain ⟨rfl, rfl, htest⟩ := hplace
          rw [hget, Option.any_some] at htest
          exact hleft (Option.filter_eq_some_iff.mpr ⟨hget, htest⟩)
        · exact hgone hget
      · simpa [RegistryMove.puts] using hputs o
  | still hputs hregistry hcounted =>
    refine .inr ⟨?_, hcounted.cancels_eq o ho⟩
    rintro ⟨endpoint, token, hget, hgone | rfl⟩
    · rw [hregistry] at hgone
      exact hgone hget
    · simpa [RegistryMove.puts] using hputs o

/-- **Registrations are conserved.** The registry may hold anything, and any calls and waiters come,
in any order, whether cancellations fail or not. From then on an observer was cancelled, or stands,
as often as before and once more for every time that it was put; where it neither stood nor was
cancelled before, that is as often as it was put. Each cancellation goes with the end of one
registration: a move cancels an observer once if it ends a registration of it, and else not. -/
theorem registrations_conserved (h : Hub) (moves : List RegistryMove) {o : ObserverId}
    (ho : o < h.observers.length) :
    h.cancels o + h.registry.holding o + moves.countP (RegistryMove.puts o) =
        (h.playAll moves).cancels o + (h.playAll moves).registry.holding o ∧
      ∀ first m later, moves = first ++ m :: later →
        let before := h.playAll first
        before.Ends m o ∧ (before.play m).cancels o = before.cancels o + 1 ∨
          ¬ before.Ends m o ∧ (before.play m).cancels o = before.cancels o :=
  ⟨balance_playAll h moves ho, fun first _ _ _ => cancels_play (observer_playAll h first ho)⟩

/-- A device whose cancellations fail is put twice under its own token and once under another, and
its waiter takes it out. It was put three times, cancelled twice, and stands once. -/
theorem failing_device_balances :
    let device : Observer :=
      { token := "own", link := .device { cancelFault := fun _ => some .closed } false }
    let h : Hub := { observers := [device], broker := .ofCapacity 1 }
    let moves : List RegistryMove := [.put "e" "own" 0, .watch "e" 0, .put "e" "own" 0,
      .put "e" "other" 0, .finish 0, .wake 0]
    moves.countP (RegistryMove.puts 0) = 3 ∧ (h.playAll moves).cancels 0 = 2 ∧
      (h.playAll moves).registry.holding 0 = 1 := by
  intro device h moves
  have hputs : moves.countP (RegistryMove.puts 0) = 3 := rfl
  have hholding : (h.playAll moves).registry.holding 0 = 1 := by decide
  have hbefore : h.cancels 0 = 0 ∧ h.registry.holding 0 = 0 := ⟨rfl, Registry.holding_empty 0⟩
  have hbalance := (registrations_conserved h moves (show 0 < h.observers.length by decide)).1
  omega

end Hub
end Observe
end Gatehouse
