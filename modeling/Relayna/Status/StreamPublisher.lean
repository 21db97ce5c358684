import Mathlib.Data.List.Infix
import Mathlib.Data.List.Nodup
import Relayna.Status.Stream

/-!
# The publisher beside the stream

The publisher keeps the channel a part of what it has pushed, in push order, and the history a
part of the same list read backwards. Everything about the stream rests on these two facts:
`Sequential` is the publisher's invariant, and the invariants of the stream never look at a
single command of `set_history`.
-/
namespace Relayna.Status

open Contracts Python Storage Transition

/-! ## The publisher -/

section Publisher

variable (c : RedisStatusStore) (taskId : String)

/-- The markers when every call has returned. -/
def markersOf (pushed : List Value) (x : String) : Option Marker :=
  if x ∈ pushed.map (c.eventKey taskId) then some .complete else none

/-- The markers while the call for `e` is under way. -/
def markersWith (pushed : List Value) (e : Value) : String → Option Marker :=
  Function.update (markersOf c taskId pushed) (c.eventKey taskId e) (some .pending)

/-- Where the keys are at each place of a call, with one call after the other. -/
def KeysAt (k : TaskKeys) : Option (Value × SetHistory) → Prop
  | none | some (_, .setPending) => k.markers = markersOf c taskId k.pushed ∧ k.pushed = k.channel
  | some (e, .getMarker) =>
    k.markers = markersOf c taskId k.pushed ∧ k.pushed = k.channel ∧
      c.eventKey taskId e ∈ k.pushed.map (c.eventKey taskId)
  | some (e, .push) =>
    k.markers = markersWith c taskId k.pushed e ∧ k.pushed = k.channel ∧
      c.eventKey taskId e ∉ k.pushed.map (c.eventKey taskId)
  | some (e, .addChild) | some (e, .addStatusEvent) | some (e, .publish) =>
    k.markers = markersWith c taskId k.channel e ∧ k.pushed = k.channel ++ [e]
  | some (e, .setComplete) =>
    k.pushed = k.channel ∧
      ∃ before, k.pushed = before ++ [e] ∧ k.markers = markersWith c taskId before e
  | some (_, .deleteMarker) | some (_, .raised) | some (_, .returned) => False

structure Sequential (k : TaskKeys) (call : Option (Value × SetHistory)) : Prop where
  once : (k.pushed.map (c.eventKey taskId)).Nodup
  recent : k.history <+: k.pushed.reverse
  keys : KeysAt c taskId k call

variable {c taskId} {k : TaskKeys} {call : Option (Value × SetHistory)} {e : Value}

theorem Sequential.initial : Sequential c taskId .init none := by
  refine ⟨by simp [TaskKeys.init], by simp [TaskKeys.init], ?_, rfl⟩
  funext x
  simp [TaskKeys.init, markersOf]

theorem KeysAt.channel_isPrefix (h : KeysAt c taskId k call) : k.channel <+: k.pushed := by
  unfold KeysAt at h
  split at h
  · rw [h.2]
  · rw [h.2]
  · rw [h.2.1]
  · rw [h.2.1]
  · rw [h.2]
    exact List.prefix_append _ _
  · rw [h.2]
    exact List.prefix_append _ _
  · rw [h.2]
    exact List.prefix_append _ _
  · rw [h.1]
  all_goals exact h.elim

theorem Sequential.channel_isPrefix (h : Sequential c taskId k call) : k.channel <+: k.pushed :=
  h.keys.channel_isPrefix

theorem ltrim_zero_isPrefix {α : Type} (l : List α) (stop : Int) : ltrim l 0 stop <+: l := by
  simp only [ltrim, lrange]
  exact List.take_prefix _ _

theorem getElem?_of_isPrefix {α : Type} {l m : List α} {i : Nat} {a : α} (h : l <+: m)
    (ha : l[i]? = some a) : m[i]? = some a := by
  obtain ⟨rest, rfl⟩ := h
  rw [List.getElem?_append_left (List.getElem?_eq_some_iff.mp ha).1]
  exact ha

/-- After the push the place of the call is one of three, which ask the same of the keys. -/
theorem keysAt_afterHistory (hm : k.markers = markersWith c taskId k.channel e)
    (hp : k.pushed = k.channel ++ [e]) :
    KeysAt c taskId k (some (e, SetHistory.afterHistory c e)) := by
  unfold SetHistory.afterHistory SetHistory.afterChild
  split
  · exact ⟨hm, hp⟩
  · split <;> exact ⟨hm, hp⟩

theorem keysAt_afterChild (hm : k.markers = markersWith c taskId k.channel e)
    (hp : k.pushed = k.channel ++ [e]) :
    KeysAt c taskId k (some (e, SetHistory.afterChild c)) := by
  unfold SetHistory.afterChild
  split <;> exact ⟨hm, hp⟩

/-- The complete marker takes the place of the pending one. -/
theorem update_markersWith (before : List Value) (e : Value) :
    Function.update (markersWith c taskId before e) (c.eventKey taskId e) (some .complete) =
      markersOf c taskId (before ++ [e]) := by
  funext x
  by_cases hx : x = c.eventKey taskId e
  · simp [hx, markersOf]
  · simp [markersWith, markersOf, hx]

theorem afterAwait_of_ne {p : SetHistory} (hp : p ≠ .returned) :
    Streaming.afterAwait e p = some (e, p) :=
  if_neg hp

theorem afterHistory_ne_returned : SetHistory.afterHistory c e ≠ .returned := by
  unfold SetHistory.afterHistory SetHistory.afterChild
  split
  · simp
  · split <;> simp

theorem afterChild_ne_returned : SetHistory.afterChild c ≠ .returned := by
  unfold SetHistory.afterChild
  split <;> simp

theorem Sequential.await {p : SetHistory} (h : Sequential c taskId k (some (e, p))) :
    Sequential c taskId (SetHistory.await c taskId e k p .ok).2
      (Streaming.afterAwait e (SetHistory.await c taskId e k p .ok).1) := by
  cases p with
  | setPending =>
    obtain ⟨hm, hp⟩ := h.keys
    by_cases known : c.eventKey taskId e ∈ k.pushed.map (c.eventKey taskId)
    · have present : k.markers (c.eventKey taskId e) = some .complete := by
        simp only [hm, markersOf, if_pos known]
      simp only [SetHistory.await, present]
      exact ⟨h.once, h.recent, hm, hp, known⟩
    · have absent : k.markers (c.eventKey taskId e) = none := by
        simp only [hm, markersOf, if_neg known]
      simp only [SetHistory.await, absent]
      exact ⟨h.once, h.recent, by rw [hm]; rfl, hp, known⟩
  | getMarker =>
    obtain ⟨hm, hp, known⟩ := h.keys
    have complete : k.markers (c.eventKey taskId e) = some .complete := by
      simp only [hm, markersOf, if_pos known]
    simp only [SetHistory.await, complete, if_true]
    exact ⟨h.once, h.recent, hm, hp⟩
  | push =>
    obtain ⟨hm, hp, fresh⟩ := h.keys
    simp only [SetHistory.await, afterAwait_of_ne afterHistory_ne_returned]
    refine ⟨?_, ?_, keysAt_afterHistory (hp ▸ hm) (by rw [hp])⟩
    · rw [List.map_append, List.map_singleton, List.nodup_append]
      refine ⟨h.once, by simp, fun x hx y hy => ?_⟩
      rw [List.mem_singleton.mp hy]
      rintro rfl
      exact fresh hx
    · rw [List.reverse_append]
      exact (ltrim_zero_isPrefix _ _).trans (List.cons_prefix_cons.mpr ⟨rfl, h.recent⟩)
  | addChild =>
    obtain ⟨hm, hp⟩ := h.keys
    simp only [SetHistory.await, afterAwait_of_ne afterChild_ne_returned]
    exact ⟨h.once, h.recent, keysAt_afterChild hm hp⟩
  | addStatusEvent => exact ⟨h.once, h.recent, h.keys⟩
  | publish =>
    obtain ⟨hm, hp⟩ := h.keys
    exact ⟨h.once, h.recent, hp, _, hp, hm⟩
  | setComplete =>
    obtain ⟨hp, before, pushed, hm⟩ := h.keys
    refine ⟨h.once, h.recent, ?_, hp⟩
    simp only [SetHistory.await, hm, pushed]
    exact update_markersWith before e
  | deleteMarker | raised | returned => exact h.keys.elim

/-- Both logs only grow. -/
theorem await_grows (c : RedisStatusStore) (taskId : String) (e : Value) (k : TaskKeys)
    (p : SetHistory) (r : Reply) :
    k.pushed <+: (SetHistory.await c taskId e k p r).2.pushed ∧
      k.channel <+: (SetHistory.await c taskId e k p r).2.channel := by
  unfold SetHistory.await
  split <;> try split
  all_goals simp

theorem eventId_eq_some {data : Fields Value} {id : String} (h : eventId data = some id) :
    ∃ value, data.lookup "event_id" = some (.str value) ∧ strip value ≠ "" ∧ strip value = id := by
  unfold eventId at h
  split at h
  · rename_i value hv
    simp only [nonEmpty, Option.ite_none_left_eq_some, Option.some.injEq] at h
    exact ⟨value, hv, h⟩
  · cases h

/-- An event with an id is known to the store by it. -/
theorem eventToken_of_eventId (c : RedisStatusStore) {e : Value} {id : String}
    (h : eventId (entries e) = some id) : c.eventToken e = id := by
  cases e with
  | dict fields =>
    obtain ⟨value, hv, present, rfl⟩ := eventId_eq_some h
    have found : (Value.dict fields).get "event_id" = some (.str value) := hv
    rw [RedisStatusStore.eventToken, found]
    exact if_pos present
  | _ => simp [eventId, entries] at h

end Publisher

/-! ## Steps of the system -/

section Steps

variable {s : SSEStatusStream} {taskId : String} {lastEventId : Option String} {t u : Streaming}
  {l : StreamStep}

/-- The publisher moves neither the stream nor what has been logged already. -/
theorem Streaming.publish_cases (hs : t.publish s.store taskId = some u) :
    (∃ e rest, t.call = none ∧ t.todo = e :: rest ∧
      u = { t with todo := rest, call := some (e, .setPending) }) ∨
    ∃ e p, t.call = some (e, p) ∧
      u = { t with
        keys := (SetHistory.await s.store taskId e t.keys p .ok).2
        call := afterAwait e (SetHistory.await s.store taskId e t.keys p .ok).1 } := by
  unfold Streaming.publish at hs
  cases hc : t.call with
  | none =>
    cases ht : t.todo with
    | nil => simp [hc, ht] at hs
    | cons e rest =>
      simp only [hc, ht, Option.some.injEq] at hs
      exact Or.inl ⟨e, rest, rfl, rfl, hs.symm⟩
  | some call =>
    obtain ⟨e, p⟩ := call
    simp only [hc, Option.some.injEq] at hs
    exact Or.inr ⟨e, p, rfl, hs.symm⟩

/-- What the publisher leaves alone, and what it may do to the logs. -/
structure Published (t u : Streaming) : Prop where
  stage : u.stage = t.stage
  position : u.position = t.position
  seen : u.seen = t.seen
  frames : u.frames = t.frames
  read : u.read = t.read
  sent : u.sent = t.sent
  pushed : t.keys.pushed <+: u.keys.pushed
  channel : t.keys.channel <+: u.keys.channel

theorem Streaming.publish_frame (hs : t.publish s.store taskId = some u) : Published t u := by
  obtain ⟨e, rest, -, -, rfl⟩ | ⟨e, p, -, rfl⟩ := publish_cases hs
  · constructor <;> simp
  · obtain ⟨pushed, channel⟩ := await_grows s.store taskId e t.keys p .ok
    exact ⟨rfl, rfl, rfl, rfl, rfl, rfl, pushed, channel⟩

theorem Sequential.publish (h : Sequential s.store taskId t.keys t.call)
    (hs : t.publish s.store taskId = some u) : Sequential s.store taskId u.keys u.call := by
  obtain ⟨e, rest, hc, -, rfl⟩ | ⟨e, p, hc, rfl⟩ := Streaming.publish_cases hs
  · rw [hc] at h
    exact ⟨h.once, h.recent, h.keys⟩
  · rw [hc] at h
    exact h.await

/-- A message of the live loop is skipped or sent. -/
theorem Streaming.receive_cases (s : SSEStatusStream) (t : Streaming) (item : Value) :
    (∃ id, s.publicId item = some id ∧ id ∈ t.seen ∧ t.receive s item = t) ∨
      (∀ id, s.publicId item = some id → id ∉ t.seen) ∧
        t.receive s item = t.emit s item .live := by
  unfold receive
  cases hid : s.publicId item with
  | none => exact Or.inr ⟨by simp, rfl⟩
  | some id =>
    by_cases seen : id ∈ t.seen
    · exact Or.inl ⟨id, rfl, seen, by simp [seen]⟩
    · exact Or.inr ⟨fun _ h => Option.some.inj h ▸ seen, by simp [seen]⟩

/-- The stream does not move the publisher. -/
theorem Streaming.advance_frame (hs : t.advance s lastEventId = some u) :
    u.keys = t.keys ∧ u.call = t.call ∧ u.todo = t.todo := by
  unfold advance at hs
  split at hs
  · exact Option.some.inj hs ▸ ⟨rfl, rfl, rfl⟩
  · exact Option.some.inj hs ▸ ⟨rfl, rfl, rfl⟩
  · exact Option.some.inj hs ▸ ⟨rfl, rfl, rfl⟩
  · exact Option.some.inj hs ▸ ⟨rfl, rfl, rfl⟩
  · obtain ⟨item, -, rfl⟩ := Option.map_eq_some_iff.mp hs
    obtain ⟨-, -, -, skipped⟩ | ⟨-, sends⟩ :=
      receive_cases s { t with position := t.position + 1 } item
    · rw [skipped]
      exact ⟨rfl, rfl, rfl⟩
    · rw [sends]
      exact ⟨rfl, rfl, rfl⟩
  · cases hs

end Steps

end Relayna.Status
