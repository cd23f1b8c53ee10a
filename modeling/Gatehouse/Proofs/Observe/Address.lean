import Gatehouse.Observe.Request
import Mathlib.Data.List.TakeWhile

/-!
Addresses that requests name. A channel that was read off a path holds no dot, so that nothing can
be moved across the dot of an endpoint: the endpoint tells the channel and the subtopic apart
(`Topic.endpoint_inj`).
-/

namespace Gatehouse

theorem Topic.endpoint_inj {c c' s s' : String} (hc : '.' ∉ c.toList) (hc' : '.' ∉ c'.toList)
    (h : endpoint c s = endpoint c' s') : c = c' ∧ s = s' := by
  have hlist : c.toList ++ '.' :: s.toList = c'.toList ++ '.' :: s'.toList := by
    have htext := congrArg String.toList h
    simpa [endpoint] using htext
  have hcut := congrArg (Text.splitOn '.') hlist
  rw [Text.splitOn_append_sep _ hc, Text.splitOn_append_sep _ hc'] at hcut
  have hchannel : c.toList = c'.toList := (List.cons.inj hcut).1
  rw [hchannel] at hlist
  have hsubtopic : s.toList = s'.toList := (List.cons.inj (List.append_cancel_left hlist)).2
  exact ⟨String.toList_inj.mp hchannel, String.toList_inj.mp hsubtopic⟩

namespace Observe

theorem not_isChannelChar_dot : isChannelChar '.' = false := by
  simp [isChannelChar, Text.not_isWord_dot]

theorem isChannelChar_of_parsePathChars {path channel subtopic : List Char}
    (h : parsePathChars path = some (channel, subtopic)) :
    ∀ c ∈ channel, isChannelChar c = true := by
  simp only [parsePathChars, Option.bind_eq_bind, Option.bind_eq_some_iff] at h
  obtain ⟨rest, -, tail, -, h⟩ := h
  split at h
  · cases h
  · split at h
    · obtain ⟨rfl, -⟩ := Prod.mk.inj (Option.some.inj h)
      exact fun c hc => List.mem_takeWhile_imp hc
    · cases h

/-- The channel in a path holds no dot. -/
theorem dot_not_mem_channel {path channel subtopic : String}
    (h : parsePath path = some (channel, subtopic)) : '.' ∉ channel.toList := by
  obtain ⟨⟨c, s⟩, hchars, hparts⟩ := Option.map_eq_some_iff.mp h
  obtain ⟨rfl, -⟩ := Prod.mk.inj hparts
  intro hdot
  rw [String.toList_ofList] at hdot
  have hchar := isChannelChar_of_parsePathChars hchars '.' hdot
  rw [not_isChannelChar_dot] at hchar
  cases hchar

/-! ## Orders -/

theorem actionOf_eq_some_iff {method : Method} {observe : Option Nat} {action : Action} :
    actionOf method observe = some action ↔
      match action with
      | .subscribe => method = .get ∧ observe = some 0
      | .unsubscribe => method = .get ∧ observe = some 1
      | .publish => method = .post := by
  unfold actionOf
  split
  · cases action <;> simp
  · cases action <;> simp
  · cases action <;> simp
  · next hpost hregister hderegister =>
    cases action with
    | subscribe => simpa using fun hmethod hobserve => hregister hmethod hobserve
    | unsubscribe => simpa using fun hmethod hobserve => hderegister hmethod hobserve
    | publish => simpa using hpost

/-- What a request asks for is what its parts say. -/
theorem order_eq_ok_iff {r : Request} {o : Order} :
    r.order = .ok o ↔ parsePath r.path = some (o.channel, o.subtopic) ∧
      authKey r.query = some o.key ∧ actionOf r.method r.observe = some o.action := by
  have hmethod : r.method = .put ∨ r.method = .delete → actionOf r.method r.observe = none := by
    rintro (h | h)
    · simp [actionOf, h]
    · simp [actionOf, h]
  obtain ⟨action, key, channel, subtopic⟩ := o
  rw [Request.order]
  split
  · next h => simp [hmethod h]
  · cases parsePath r.path with
    | none => simp
    | some parts =>
      cases authKey r.query with
      | none => simp
      | some k =>
        cases actionOf r.method r.observe with
        | none => simp
        | some a =>
          obtain ⟨c, s⟩ := parts
          simp only [Except.ok.injEq, Order.mk.injEq, Option.some.injEq, Prod.mk.injEq]
          constructor
          · rintro ⟨rfl, rfl, rfl, rfl⟩
            exact ⟨⟨rfl, rfl⟩, rfl, rfl⟩
          · rintro ⟨⟨rfl, rfl⟩, rfl, rfl⟩
            exact ⟨rfl, rfl, rfl, rfl⟩

end Observe
end Gatehouse
