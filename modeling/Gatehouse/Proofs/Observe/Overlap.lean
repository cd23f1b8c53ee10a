import Gatehouse.Proofs.Observe.Isolation
import Gatehouse.Proofs.Observe.Service
import Gatehouse.Proofs.Observe.Subtopic

/-!
Channels that overlap. The hub takes any text for a channel, and an address puts a dot between the
channel and the subtopic. So a channel may read like an endpoint of another one (`Topic.Below`), and
then the two share endpoints and subjects (`Topic.endpoint_eq_iff`). Publications reach their own
subscribers only, subjects tell channels and subtopics, and endpoints and subjects agree: each of
these laws holds among some channels exactly if none of them lies below another
(`addresses_tell_channels_iff`). The channels that paths name are such channels.
-/

namespace Gatehouse

namespace Topic

/-- The channel reads like an endpoint of the other one. -/
def Below (lower upper : String) : Prop := ∃ rest, lower = endpoint upper rest

theorem endpoint_assoc (c x s : String) :
    endpoint (endpoint c x) s = endpoint c (endpoint x s) := by
  simp [endpoint, String.append_assoc]

theorem ne_endpoint (c x : String) : c ≠ endpoint c x := by
  intro h
  have hlength := congrArg String.length h
  have hdot : ".".length = 1 := rfl
  rw [endpoint, String.length_append, String.length_append, hdot] at hlength
  omega

theorem endpoint_ne_empty (c s : String) : endpoint c s ≠ "" := by
  simp [endpoint]

/-- The first channel ends in the second one, or where it does. -/
theorem of_append_dot {c s c' s' : String} {gap : List Char} (hc : c'.toList = c.toList ++ gap)
    (hs : '.' :: s.toList = gap ++ '.' :: s'.toList) :
    c = c' ∧ s = s' ∨ ∃ x, c' = endpoint c x ∧ s = endpoint x s' := by
  cases gap with
  | nil =>
    rw [List.append_nil] at hc
    exact .inl ⟨(String.toList_inj.mp hc).symm, String.toList_inj.mp (List.cons.inj hs).2⟩
  | cons dot x =>
    obtain ⟨rfl, hs⟩ := List.cons.inj hs
    refine .inr ⟨String.ofList x, String.toList_inj.mp ?_, String.toList_inj.mp ?_⟩
    · simpa [endpoint] using hc
    · simpa [endpoint] using hs

/-- Two addresses have one endpoint if they are the same, or if the channel of one goes on into the
subtopic of the other, up to a dot of it. -/
theorem endpoint_eq_iff {c s c' s' : String} :
    endpoint c s = endpoint c' s' ↔ c = c' ∧ s = s' ∨
      (∃ x, c' = endpoint c x ∧ s = endpoint x s') ∨
      ∃ x, c = endpoint c' x ∧ s' = endpoint x s := by
  constructor
  · intro h
    have hlist : c.toList ++ '.' :: s.toList = c'.toList ++ '.' :: s'.toList := by
      have htext := congrArg String.toList h
      simpa [endpoint] using htext
    rcases List.append_eq_append_iff.mp hlist with ⟨gap, hc, hs⟩ | ⟨gap, hc, hs⟩
    · rcases of_append_dot hc hs with hsame | hbelow
      · exact .inl hsame
      · exact .inr (.inl hbelow)
    · rcases of_append_dot hc hs with ⟨rfl, rfl⟩ | hbelow
      · exact .inl ⟨rfl, rfl⟩
      · exact .inr (.inr hbelow)
  · rintro (⟨rfl, rfl⟩ | ⟨x, rfl, rfl⟩ | ⟨x, rfl, rfl⟩)
    · rfl
    · exact (endpoint_assoc c x s').symm
    · exact endpoint_assoc c' x s

/-- A subject is an endpoint of the channel of all channels. -/
theorem subject_eq (c s : String) :
    subject c s = endpoint "channels" (if s = "" then c else endpoint c s) := by
  have hroot : "channels." = "channels" ++ "." := rfl
  rw [subject]
  by_cases hs : s = ""
  · simp [hs, endpoint, hroot]
  · have hempty : s.isEmpty = false := by simpa using hs
    simp [hs, hempty, endpoint, hroot, String.append_assoc]

theorem subject_eq_iff {c s c' s' : String} :
    subject c s = subject c' s' ↔
      (if s = "" then c else endpoint c s) = (if s' = "" then c' else endpoint c' s') := by
  rw [subject_eq, subject_eq, endpoint_right_inj]

/-! ## Channels apart -/

/-- None of the channels lies below another. -/
def Apart (P : String → Prop) : Prop := ∀ c c', P c → P c' → ¬ Below c c'

section Apart

variable {P : String → Prop} {c s c' s' : String}

theorem Apart.eq_of_endpoint (h : Apart P) (hc : P c) (hc' : P c')
    (heq : endpoint c s = endpoint c' s') : c = c' ∧ s = s' := by
  rcases endpoint_eq_iff.mp heq with hsame | ⟨x, hx, -⟩ | ⟨x, hx, -⟩
  · exact hsame
  · exact absurd ⟨x, hx⟩ (h c' c hc' hc)
  · exact absurd ⟨x, hx⟩ (h c c' hc hc')

theorem Apart.eq_of_subject (h : Apart P) (hc : P c) (hc' : P c')
    (heq : subject c s = subject c' s') : c = c' ∧ s = s' := by
  rw [subject_eq_iff] at heq
  by_cases hs : s = ""
  · by_cases hs' : s' = ""
    · rw [if_pos hs, if_pos hs'] at heq
      exact ⟨heq, by rw [hs, hs']⟩
    · rw [if_pos hs, if_neg hs'] at heq
      exact absurd ⟨s', heq⟩ (h c c' hc hc')
  · by_cases hs' : s' = ""
    · rw [if_neg hs, if_pos hs'] at heq
      exact absurd ⟨s, heq.symm⟩ (h c' c hc' hc)
    · rw [if_neg hs, if_neg hs'] at heq
      exact h.eq_of_endpoint hc hc' heq

theorem apart_of_dotless (h : ∀ c, P c → '.' ∉ c.toList) : Apart P := by
  rintro c c' hc - ⟨x, rfl⟩
  refine h _ hc ?_
  simp [endpoint]

end Apart
end Topic

namespace Observe

open Topic

/-! ## Who is reached -/

namespace Hub

/-- To publish the message is to hand one to the observer. -/
def Reaches (h : Hub) (access : AccessCheck) (now : Instant) (key : String) (m : Message)
    (o : ObserverId) : Prop :=
  h.count Observer.handled o < (h.publish access now key m).hub.count Observer.handled o

/-- Who is reached stands under the endpoint of the message. -/
theorem reaches_iff {h : Hub} {access : AccessCheck} {now : Instant} {key : String} {m : Message}
    {o : ObserverId} : h.Reaches access now key m o ↔
      (∃ thing, access key m.channel = .ok thing) ∧ o < h.observers.length ∧
        o ∈ h.registry.observers m.endpoint := by
  rw [Reaches]
  cases haccess : access key m.channel with
  | error e =>
    rw [publish_of_error h haccess]
    simp
  | ok thing =>
    rcases Nat.lt_or_ge o h.observers.length with ho | ho
    · have hafter : (h.publish access now key m).hub.count Observer.handled o =
          h.count Observer.handled o + (h.registry.observers m.endpoint).count o := by
        rw [publish_of_ok now haccess]
        exact count_handedAll _ _ ho
      rw [hafter, Nat.lt_add_right_iff_pos, List.count_pos_iff]
      simp [ho]
    · have hlength := (quiet_publish access now h key m).observers_length
      have hnone : (h.publish access now key m).hub.count Observer.handled o = 0 := by
        rw [count, List.getElem?_eq_none (by omega)]
        rfl
      simp [hnone, Nat.not_lt.mpr ho]

end Hub

namespace Scene

/-- What a move does to the log. -/
theorem step_log (x : Scene) (m : Move) :
    (x.step m).log = x.log ∨
      (∃ access key c s o thing, m = .subscribe access key c s o ∧ access key c = .ok thing ∧
        (x.step m).log = .subscribed (endpoint c s) (x.hub.tokenOf o) o :: x.log) ∨
      ∃ endpoint token, (x.step m).log = .unsubscribed endpoint token :: x.log := by
  cases m with
  | subscribe access key c s o =>
    rw [step]
    split
    · exact .inl rfl
    · next thing haccess =>
      split
      · exact .inr (.inl ⟨access, key, c, s, o, thing, rfl, authorize_eq_ok_iff.mp haccess, rfl⟩)
      · exact .inl rfl
  | unsubscribe access key c s token =>
    rw [step]
    split
    · exact .inl rfl
    · exact .inr (.inr ⟨_, _, rfl⟩)
  | addObserver o =>
    rw [step]
    split <;> exact .inl rfl
  | watch i =>
    rw [step]
    split <;> exact .inl rfl
  | wake i =>
    rw [step]
    split <;> exact .inl rfl
  | _ => exact .inl rfl

theorem run_concat (x : Scene) (moves : List Move) (m : Move) :
    x.run (moves ++ [m]) = (x.run moves).step m := by
  simp [run]

/-- Every subscription in the log is one of the moves. -/
theorem exists_move_of_log {broker : Broker} {moves : List Move} {later earlier : List Effect}
    {endpoint token : String} {o : ObserverId}
    (h : ((start broker).run moves).log = later ++ .subscribed endpoint token o :: earlier) :
    ∃ before access key c s thing after, moves = before ++ .subscribe access key c s o :: after ∧
      access key c = .ok thing ∧ Topic.endpoint c s = endpoint ∧
      ((start broker).run before).log = earlier := by
  induction moves using List.reverseRecOn generalizing later with
  | nil => simp [run, start] at h
  | append_singleton moves m ih =>
    rw [run_concat] at h
    -- the effect is the last move's, or there is more of the log before it
    have hcases : (∃ access key c s thing, m = .subscribe access key c s o ∧
          access key c = .ok thing ∧ Topic.endpoint c s = endpoint ∧
          ((start broker).run moves).log = earlier) ∨
        ∃ rest, ((start broker).run moves).log =
          rest ++ .subscribed endpoint token o :: earlier := by
      rcases step_log ((start broker).run moves) m with
        hlog | ⟨access, key, c, s, o', thing, rfl, haccess, hlog⟩ | ⟨e, t, hlog⟩
      · exact .inr ⟨later, hlog ▸ h⟩
      · rw [hlog] at h
        cases later with
        | nil =>
          obtain ⟨heffect, hearlier⟩ := List.cons.inj h
          cases heffect
          exact .inl ⟨access, key, c, s, thing, rfl, haccess, rfl, hearlier⟩
        | cons e later => exact .inr ⟨later, (List.cons.inj h).2⟩
      · rw [hlog] at h
        cases later with
        | nil => cases h
        | cons e later => exact .inr ⟨later, (List.cons.inj h).2⟩
    rcases hcases with ⟨access, key, c, s, thing, rfl, hfound⟩ | ⟨rest, hrest⟩
    · exact ⟨moves, access, key, c, s, thing, [], rfl, hfound⟩
    · obtain ⟨before, access, key, c, s, thing, after, rfl, hfound⟩ := ih hrest
      exact ⟨before, access, key, c, s, thing, after ++ [m], by simp, hfound⟩

/-- One of the moves has subscribed the observer to the channel and the subtopic. It was let
through, and nothing was done in its place since. -/
def SubscribedOn (broker : Broker) (moves : List Move) (o : ObserverId) (c s : String) : Prop :=
  ∃ before access key thing after later token,
    moves = before ++ .subscribe access key c s o :: after ∧ access key c = .ok thing ∧
    ((start broker).run moves).log =
      later ++ .subscribed (endpoint c s) token o :: ((start broker).run before).log ∧
    ∀ e ∈ later, e.place ≠ (endpoint c s, token)

/-- Who is reached was subscribed to the endpoint of the message, by whatever channel and subtopic
it was named. -/
theorem subscribedOn_of_reaches {broker : Broker} {moves : List Move} {access : AccessCheck}
    {now : Instant} {key : String} {m : Message} {o : ObserverId}
    (h : ((start broker).run moves).hub.Reaches access now key m o) :
    ∃ c s, SubscribedOn broker moves o c s ∧ endpoint c s = m.endpoint := by
  obtain ⟨-, -, hmem⟩ := Hub.reaches_iff.mp h
  obtain ⟨token, hget⟩ := Registry.exists_of_mem_observers _ _ hmem
  obtain ⟨later, earlier, hlog, hlater⟩ :=
    ((consistent_start broker).run moves).registered hget
  obtain ⟨before, access', key', c, s, thing, after, hmoves, haccess, hendpoint, rfl⟩ :=
    exists_move_of_log hlog
  refine ⟨c, s, ⟨before, access', key', thing, after, later, token, hmoves, haccess, ?_, ?_⟩,
    hendpoint⟩
  · rw [hendpoint]
    exact hlog
  · rw [hendpoint]
    exact hlater

/-- A subscription that is let through puts the observer under the endpoint. -/
theorem get?_of_subscribe (x : Scene) {access : AccessCheck} {key c thing : String} (s : String)
    {o : ObserverId} (haccess : access key c = .ok thing) (ho : o < x.hub.observers.length) :
    (x.step (.subscribe access key c s o)).hub.registry.get? (endpoint c s) (x.hub.tokenOf o) =
      some o := by
  have hregistry := (Hub.quiet_put x.hub (endpoint c s) (x.hub.tokenOf o) o).registry_eq
  simp only [step, authorize_eq_ok_iff.mpr haccess, if_pos ho, hregistry]
  rw [Registry.get?_put, if_pos ⟨rfl, rfl⟩]

/-- An observer is made and subscribed. -/
def oneSubscription (access : AccessCheck) (key c s : String) : List Move :=
  [.addObserver { token := "", link := .device {} false }, .subscribe access key c s 0]

theorem reaches_of_oneSubscription (broker : Broker) {access : AccessCheck}
    {c s thing thing' : String} {m : Message} (now : Instant) (key key' : String)
    (haccess : access key c = .ok thing)
    (haccess' : access key' m.channel = .ok thing') (hendpoint : endpoint c s = m.endpoint) :
    ((start broker).run (oneSubscription access key c s)).hub.Reaches access now key' m 0 := by
  let made := (start broker).step (.addObserver { token := "", link := .device {} false })
  have hmade : 0 < made.hub.observers.length := Nat.zero_lt_one
  have hget := made.get?_of_subscribe s haccess hmade
  have hexists := (later_step made (.subscribe access key c s 0)).observer_exists hmade
  rw [hendpoint] at hget
  exact Hub.reaches_iff.mpr ⟨⟨thing', haccess'⟩, hexists, Registry.mem_observers _ _ _ hget⟩

theorem channel_of_mem_oneSubscription {access access' : AccessCheck} {key key' c c' s s' : String}
    {o : ObserverId} (h : Move.subscribe access' key' c' s' o ∈ oneSubscription access key c s) :
    c' = c := by
  simp only [oneSubscription, List.mem_cons, reduceCtorEq, false_or, List.not_mem_nil, or_false,
    Move.subscribe.injEq] at h
  exact h.2.2.1

end Scene

/-! ## What addresses tell -/

section Laws

variable (P : String → Prop)

/-- Whoever is reached by a publication on such a channel was subscribed to its very channel and
subtopic, as long as all subscriptions are to such channels. -/
def ReachesOwn : Prop :=
  ∀ (broker : Broker) (moves : List Move) (access : AccessCheck) (now : Instant) (key : String)
    (m : Message) (o : ObserverId),
    P m.channel → (∀ access key c s o, Move.subscribe access key c s o ∈ moves → P c) →
    ((Scene.start broker).run moves).hub.Reaches access now key m o →
    Scene.SubscribedOn broker moves o m.channel m.subtopic

/-- Messages on such channels have one subject only if they have one channel and one subtopic. -/
def SubjectsTell : Prop :=
  ∀ m m' : Message, P m.channel → P m'.channel → m.subject = m'.subject →
    m.channel = m'.channel ∧ m.subtopic = m'.subtopic

/-- Messages on such channels have one endpoint exactly if they have one subject. -/
def AddressesAgree : Prop :=
  ∀ m m' : Message, P m.channel → P m'.channel →
    (m.endpoint = m'.endpoint ↔ m.subject = m'.subject)

variable {P}

theorem reachesOwn_of_apart (h : Apart P) : ReachesOwn P := by
  intro broker moves access now key m o hm hmoves hreaches
  obtain ⟨c, s, hsubscribed, hendpoint⟩ := Scene.subscribedOn_of_reaches hreaches
  obtain ⟨before, access', key', thing, after, later, token, rfl, -⟩ := id hsubscribed
  have hc : P c := hmoves access' key' c s o (by simp)
  obtain ⟨rfl, rfl⟩ := h.eq_of_endpoint hc hm hendpoint
  exact hsubscribed

/-- Among channels that lie below each other, an observer of the upper one is reached by a
publication on the lower one. -/
theorem apart_of_reachesOwn (h : ReachesOwn P) : Apart P := by
  rintro lower upper hlower hupper ⟨x, rfl⟩
  let everyone : AccessCheck := fun _ _ => .ok ""
  let m : Message := { channel := endpoint upper x }
  have hgranted (c : String) : everyone "" c = .ok "" := rfl
  have hreaches := Scene.reaches_of_oneSubscription { depth := 1 } (m := m) (.ofParts 0 1) "" ""
    (hgranted upper) (hgranted m.channel) (endpoint_assoc upper x "").symm
  obtain ⟨before, access, key, thing, after, later, token, hmoves, -⟩ :=
    h { depth := 1 } _ _ _ _ m 0 hlower
      (fun access key c s o hmem => Scene.channel_of_mem_oneSubscription hmem ▸ hupper) hreaches
  have hmem : Move.subscribe access key (endpoint upper x) "" 0 ∈
      Scene.oneSubscription everyone "" upper (endpoint x "") := by
    rw [hmoves]
    exact List.mem_append_right _ List.mem_cons_self
  exact ne_endpoint upper x (Scene.channel_of_mem_oneSubscription hmem).symm

theorem apart_of_subjectsTell (h : SubjectsTell P) : Apart P := by
  rintro lower upper hlower hupper ⟨x, rfl⟩
  have hsubject : subject (endpoint upper x) "s" = subject upper (endpoint x "s") := by
    rw [subject_eq_iff, if_neg (by decide), if_neg (endpoint_ne_empty x "s"), endpoint_assoc]
  have hsame := h { channel := endpoint upper x, subtopic := "s" }
    { channel := upper, subtopic := endpoint x "s" } hlower hupper hsubject
  exact ne_endpoint upper x hsame.1.symm

theorem apart_of_addressesAgree (h : AddressesAgree P) : Apart P := by
  rintro lower upper hlower hupper ⟨x, rfl⟩
  have hsubject : subject (endpoint upper x) "" = subject upper (endpoint x "") :=
    (h { channel := endpoint upper x } { channel := upper, subtopic := endpoint x "" } hlower
      hupper).mp (endpoint_assoc upper x "")
  -- the empty subtopic keeps its dot in the one address and not in the other
  rw [subject_eq_iff, if_pos rfl, if_neg (endpoint_ne_empty x ""), ← endpoint_assoc] at hsubject
  exact ne_endpoint _ _ hsubject

/-- **Addresses tell channels exactly if none lies below another.** For every sort of channels,
three laws hold exactly if no channel of the sort is another one with a dot and more behind it: that
every publication reaches none but observers of its channel and subtopic, in every run of the hub
and whatever keys are granted; that messages of different channels or subtopics have different
subjects; and that the local address and the one on the broker take the same messages together. The
channels that paths name are of such a sort. -/
theorem addresses_tell_channels_iff (P : String → Prop) :
    (ReachesOwn P ↔ Apart P) ∧ (SubjectsTell P ↔ Apart P) ∧ (AddressesAgree P ↔ Apart P) ∧
      Apart fun channel => ∃ path subtopic, parsePath path = some (channel, subtopic) := by
  refine ⟨⟨apart_of_reachesOwn, reachesOwn_of_apart⟩,
    ⟨apart_of_subjectsTell, fun h m m' hm hm' => ?_⟩,
    ⟨apart_of_addressesAgree, fun h m m' hm hm' => ⟨fun heq => ?_, fun heq => ?_⟩⟩, ?_⟩
  · exact h.eq_of_subject hm hm'
  · obtain ⟨hchannel, hsubtopic⟩ := h.eq_of_endpoint hm hm' heq
    rw [Message.subject, Message.subject, hchannel, hsubtopic]
  · obtain ⟨hchannel, hsubtopic⟩ := h.eq_of_subject hm hm' heq
    rw [Message.endpoint, Message.endpoint, hchannel, hsubtopic]
  · refine apart_of_dotless ?_
    rintro channel ⟨path, subtopic, hpath⟩
    exact dot_not_mem_channel hpath

/-- A watcher of one channel hears another one, which its key is refused on. And of two messages
that share their subject, one goes to other observers than the other. -/
theorem neighbour_is_overheard :
    let access : AccessCheck :=
      Grants.check ((Grants.grant Table.empty "k" "a" "watcher").grant "l" "a.b" "sensor")
    let scene := (Scene.start { depth := 1 }).run (Scene.oneSubscription access "k" "a" "b.c")
    access "k" "a.b" = .error (.unauthorized .accessDenied) ∧
      scene.hub.Reaches access (.ofParts 0 1) "l" { channel := "a.b", subtopic := "c" } 0 ∧
      subject "a.b" "" = subject "a" "b" ∧ endpoint "a.b" "" ≠ endpoint "a" "b" := by
  intro access scene
  have hwatcher : access "k" "a" = .ok "watcher" := rfl
  have hsensor : access "l" "a.b" = .ok "sensor" := rfl
  refine ⟨rfl, ?_, rfl, by decide⟩
  exact Scene.reaches_of_oneSubscription { depth := 1 } (.ofParts 0 1) "k" "l" hwatcher hsensor rfl

end Laws
end Observe
end Gatehouse
