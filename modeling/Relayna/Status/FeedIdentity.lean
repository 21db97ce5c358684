import Relayna.Observability.FeedPaging
import Relayna.Status.Store

/-!
# Events of the history and entries of the feed

`set_history` knows an event by its task and its token, the service event feed by its cursor.
The token is looked up within a task and only a text is taken for an id; the cursor is looked up
in one feed for all tasks and any value is made a text. So events that the history keeps apart
can be one entry of the feed.
-/
namespace Relayna.Status

open Contracts Observability Python Storage

/-- The keys of every task, and the feed. -/
structure Stores where
  keys : String → TaskKeys
  feed : FeedKeys

def Stores.init : Stores := ⟨fun _ => .init, .init⟩

/-- One command of `set_history`, with what `add_status_event` does to the feed. -/
def awaitCommand (c : RedisStatusStore) (f : RedisServiceEventFeedStore) (taskId : String)
    (event : Fields Value) (s : Stores × SetHistory) : Stores × SetHistory :=
  let after := SetHistory.await c taskId (.dict event) (s.1.keys taskId) s.2 .ok
  let feed := if s.2 = .addStatusEvent then (f.addStatusEvent s.1.feed event).1 else s.1.feed
  (⟨Function.update s.1.keys taskId after.2, feed⟩, after.1)

/-- `set_history(task_id, event)` to its end; it has no more than seven commands. -/
def setHistory (c : RedisStatusStore) (f : RedisServiceEventFeedStore) (s : Stores)
    (taskId : String) (event : Fields Value) : Stores × SetHistory :=
  (awaitCommand c f taskId event)^[7] (s, .setPending)

def storeAll (c : RedisStatusStore) (f : RedisServiceEventFeedStore)
    (calls : List (String × Fields Value)) : Stores :=
  calls.foldl (fun s call => (setHistory c f s call.1 call.2).1) .init

variable {c : RedisStatusStore} {f : RedisServiceEventFeedStore} {s : Stores} {taskId : String}
  {event : Fields Value}

/-- A call for an event that its task has not seen puts it into the history and hands it to the
feed. -/
structure Handed (c : RedisStatusStore) (f : RedisServiceEventFeedStore) (s s' : Stores)
    (taskId : String) (event : Fields Value) : Prop where
  feed : s'.feed = (f.addStatusEvent s.feed event).1
  pushed : (s'.keys taskId).pushed = (s.keys taskId).pushed ++ [.dict event]
  markers : (s'.keys taskId).markers = Function.update (s.keys taskId).markers
    (c.eventKey taskId (.dict event)) (some .complete)
  others : ∀ other, other ≠ taskId → s'.keys other = s.keys other

theorem setHistory_fresh (enabled : c.serviceEventStore = true)
    (fresh : (s.keys taskId).markers (c.eventKey taskId (.dict event)) = none) :
    (setHistory c f s taskId event).2 = .returned ∧
      Handed c f s (setHistory c f s taskId event).1 taskId event := by
  have child : SetHistory.afterChild c = .addStatusEvent := by
    simp [SetHistory.afterChild, enabled]
  by_cases parent : (c.parentTaskId (.dict event)).isSome
  · have history : SetHistory.afterHistory c (.dict event) = .addChild := by
      simp [SetHistory.afterHistory, parent]
    simp only [setHistory, Function.iterate_succ, Function.iterate_zero, Function.comp, id,
      awaitCommand, SetHistory.await, fresh, history, child]
    refine ⟨by simp, ⟨by simp, by simp, by simp, fun other ne => by simp [ne]⟩⟩
  · have history : SetHistory.afterHistory c (.dict event) = .addStatusEvent := by
      simp [SetHistory.afterHistory, parent, child]
    simp only [setHistory, Function.iterate_succ, Function.iterate_zero, Function.comp, id,
      awaitCommand, SetHistory.await, fresh, history, child]
    refine ⟨by simp, ⟨by simp, by simp, by simp, fun other ne => by simp [ne]⟩⟩

/-- The cursor under which the feed stores an event, if it does. -/
def cursorOf (f : RedisServiceEventFeedStore) (event : Fields Value) : Option String :=
  (f.normalizeStatusFeedEvent event).map RelaynaServiceEvent.cursor

/-- The feed took in exactly these cursors, in this order, and none of their keys expired. -/
structure Logged (f : RedisServiceEventFeedStore) (k : FeedKeys) (stored : List String) :
    Prop where
  feed : FeedInv f k stored
  keys : ∀ x, k.events (f.eventKey x) = true ↔ x ∈ stored
  once : stored.Nodup

theorem Logged.initial : Logged f .init [] :=
  ⟨.initial, by simp [FeedKeys.init], by simp⟩

theorem recency_of_nodup {stored : List String} (once : stored.Nodup) :
    Recency.recency stored = stored.reverse := by
  rw [Recency.recency, List.dedup_eq_self.mpr once]

theorem Logged.members_eq {k : FeedKeys} {stored : List String} (h : Logged f k stored)
    (room : (stored.length : Int) ≤ f.feedMaxlen) : k.members = stored.reverse := by
  rw [h.feed.recent, recency_of_nodup h.once]
  exact List.take_of_length_le (by rw [List.length_reverse]; omega)

/-- A cursor that is known is not stored again. -/
theorem Logged.skip {k : FeedKeys} {stored : List String} (h : Logged f k stored)
    {item : RelaynaServiceEvent} (known : item.cursor ∈ stored) : (f.store k item).1 = k := by
  unfold RedisServiceEventFeedStore.store
  split
  · rfl
  · simp [FeedKeys.storeScript, (h.keys item.cursor).mpr known]

/-- A new cursor is stored, with its own payload and beside those that are there. -/
theorem Logged.insert {k : FeedKeys} {stored : List String} (h : Logged f k stored)
    {item : RelaynaServiceEvent} (new : item.cursor ∉ stored)
    (room : (stored.length : Int) + 1 ≤ f.feedMaxlen) {serialized : String}
    (dumps : f.json.modelDumpJson item = some serialized) :
    Logged f (f.store k item).1 (stored ++ [item.cursor]) ∧
      (f.store k item).1.payloads =
        Function.update k.payloads item.cursor (some serialized) := by
  have fresh : k.events (f.eventKey item.cursor) = false := by
    rw [← Bool.not_eq_true, h.keys]
    exact new
  have script : f.store k item =
      k.storeScript (f.eventKey item.cursor) serialized item.cursor f.feedMaxlen := by
    simp only [RedisServiceEventFeedStore.store, dumps]
  have bound : 1 ≤ f.feedMaxlen := by omega
  have logged : Logged f (f.store k item).1 (stored ++ [item.cursor]) := by
    rw [script]
    refine ⟨h.feed.storeScript bound dumps fresh, fun x => ?_, ?_⟩
    · have events : (k.storeScript (f.eventKey item.cursor) serialized item.cursor
          f.feedMaxlen).1.events = Function.update k.events (f.eventKey item.cursor) true := by
        simp only [FeedKeys.storeScript, fresh, Bool.false_eq_true, if_false]
        split <;> rfl
      rw [events]
      by_cases hx : x = item.cursor
      · simp [hx]
      · have key : f.eventKey x ≠ f.eventKey item.cursor := fun same =>
          hx (redisKey_second_injective f.text f.keyPrefix _ _ same)
        rw [Function.update_of_ne key, h.keys]
        simp [hx]
    · rw [List.nodup_append]
      exact ⟨h.once, by simp, by grind⟩
  refine ⟨logged, funext fun x => ?_⟩
  have members := logged.members_eq (by simpa using room)
  rw [script] at members ⊢
  rw [storeScript_payloads h.feed fresh, members]
  by_cases hx : x ∈ (stored ++ [item.cursor]).reverse
  · rw [if_pos hx]
  · rw [if_neg hx]
    simp only [List.mem_reverse, List.mem_append, List.mem_singleton, not_or] at hx
    rw [Function.update_of_ne hx.2]
    have outside : x ∉ k.members := by
      rw [h.members_eq (by omega)]
      simpa using hx.1
    rw [h.feed.fields, Option.isSome_iff_ne_none, not_not] at outside
    exact outside.symm

/-- Every event names its task, and no two have the same cursor: the text of the event id,
whatever the task, or the digest of an event that has none. -/
structure Identified (f : RedisServiceEventFeedStore) (events : List (Fields Value)) : Prop where
  named : ∀ e ∈ events, (f.normalizeString (e.lookup "task_id")).isSome
  distinct : (events.map (cursorOf f)).Nodup

/-- The feed has one entry for each event, with the payload of that event. -/
structure EntryEach (f : RedisServiceEventFeedStore) (k : FeedKeys)
    (events : List (Fields Value)) : Prop where
  count : k.index.card = events.length
  entry : ∀ e ∈ events, ∃ item, f.normalizeStatusFeedEvent e = some item ∧
    (k.payloads item.cursor).isSome ∧ k.payloads item.cursor = f.json.modelDumpJson item

theorem isSome_cursorOf (e : Fields Value) :
    (cursorOf f e).isSome = (f.normalizeString (e.lookup "task_id")).isSome := by
  simp [cursorOf, RedisServiceEventFeedStore.normalizeStatusFeedEvent]

theorem identified_concat {events : List (Fields Value)} {e : Fields Value} :
    Identified f (events ++ [e]) ↔
      Identified f events ∧ (cursorOf f e).isSome ∧ cursorOf f e ∉ events.map (cursorOf f) := by
  rw [isSome_cursorOf]
  constructor
  · rintro ⟨named, distinct⟩
    rw [List.map_append, List.nodup_append] at distinct
    refine ⟨⟨fun x hx => named x (by simp [hx]), distinct.1⟩, named e (by simp), fun again => ?_⟩
    exact distinct.2.2 _ again _ (by simp) rfl
  · rintro ⟨⟨named, distinct⟩, last, new⟩
    refine ⟨fun x hx => ?_, ?_⟩
    · rcases List.mem_append.mp hx with hx | hx
      · exact named x hx
      · exact List.mem_singleton.mp hx ▸ last
    · rw [List.map_append, List.nodup_append]
      refine ⟨distinct, by simp, fun x hx y hy same => new ?_⟩
      rw [List.map_singleton, List.mem_singleton] at hy
      exact hy ▸ same ▸ hx

/-- What the feed holds after some events. -/
structure Summary (f : RedisServiceEventFeedStore) (events : List (Fields Value)) (k : FeedKeys)
    (stored : List String) : Prop where
  logged : Logged f k stored
  known : ∀ x, x ∈ stored ↔ some x ∈ events.map (cursorOf f)
  short : stored.length ≤ events.length
  full : stored.length = events.length ↔ Identified f events
  entry : Identified f events → ∀ e ∈ events, ∃ item, f.normalizeStatusFeedEvent e = some item ∧
    (k.payloads item.cursor).isSome ∧ k.payloads item.cursor = f.json.modelDumpJson item

theorem Summary.initial : Summary f [] .init [] := by
  refine ⟨.initial, by simp, le_rfl, ?_, by simp⟩
  exact ⟨fun _ => ⟨by simp, by simp⟩, fun _ => rfl⟩

/-- An event that the feed drops: it names no task, or its cursor is taken. -/
theorem Summary.drop {events : List (Fields Value)} {k : FeedKeys} {stored : List String}
    (h : Summary f events k stored) {e : Fields Value}
    (dropped : ∀ x, cursorOf f e = some x → x ∈ stored) : Summary f (events ++ [e]) k stored := by
  have unidentified : ¬Identified f (events ++ [e]) := by
    rw [identified_concat]
    rintro ⟨-, named, new⟩
    obtain ⟨x, hx⟩ := Option.isSome_iff_exists.mp named
    exact new (hx ▸ (h.known x).mp (dropped x hx))
  refine ⟨h.logged, fun x => ?_, h.short.trans (by simp), ?_, fun all => absurd all unidentified⟩
  · rw [h.known, List.map_append, List.mem_append, List.map_singleton, List.mem_singleton]
    exact ⟨Or.inl, fun hx => hx.elim id fun hx => (h.known x).mp (dropped x hx.symm)⟩
  · have := h.short
    simp only [List.length_append, List.length_singleton]
    exact ⟨fun same => by omega, fun all => absurd all unidentified⟩

theorem Summary.keep {events : List (Fields Value)} {k : FeedKeys} {stored : List String}
    (h : Summary f events k stored) {e : Fields Value} {item : RelaynaServiceEvent}
    (he : f.normalizeStatusFeedEvent e = some item) (new : item.cursor ∉ stored)
    (room : (stored.length : Int) + 1 ≤ f.feedMaxlen)
    (dumps : (f.json.modelDumpJson item).isSome) :
    Summary f (events ++ [e]) (f.store k item).1 (stored ++ [item.cursor]) := by
  obtain ⟨serialized, dumps⟩ := Option.isSome_iff_exists.mp dumps
  obtain ⟨logged, payloads⟩ := h.logged.insert new room dumps
  have cursor : cursorOf f e = some item.cursor := by simp [cursorOf, he]
  have fresh : cursorOf f e ∉ events.map (cursorOf f) := by
    rw [cursor, ← h.known]
    exact new
  refine ⟨logged, fun x => ?_, by simpa using h.short, ?_, fun all x hx => ?_⟩
  · rw [List.mem_append, h.known, List.map_append, List.mem_append, List.map_singleton,
      List.mem_singleton, List.mem_singleton, cursor, Option.some.injEq]
  · rw [identified_concat, ← h.full]
    simp only [List.length_append, List.length_singleton, Nat.add_right_cancel_iff]
    exact ⟨fun same => ⟨same, by simp [cursor], fresh⟩, fun all => all.1⟩
  · rcases List.mem_append.mp hx with hx | hx
    · obtain ⟨other, ho, present, own⟩ := h.entry (identified_concat.mp all).1 x hx
      have ne : other.cursor ≠ item.cursor := by
        intro same
        refine fresh (List.mem_map.mpr ⟨x, hx, ?_⟩)
        rw [cursor, cursorOf, ho, Option.map_some, same]
      exact ⟨other, ho, by rw [payloads, Function.update_of_ne ne]; exact ⟨present, own⟩⟩
    · rw [List.mem_singleton.mp hx]
      exact ⟨item, he, by rw [payloads, Function.update_self, dumps]; simp⟩

/-- The feed after the events have been handed to it in order. -/
theorem exists_summary (events : List (Fields Value))
    (room : (events.length : Int) ≤ f.feedMaxlen)
    (dumps : ∀ e ∈ events, ∀ item, f.normalizeStatusFeedEvent e = some item →
      (f.json.modelDumpJson item).isSome) :
    ∃ stored, Summary f events
      (events.foldl (fun k e => (f.addStatusEvent k e).1) .init) stored := by
  induction events using List.reverseRecOn with
  | nil => exact ⟨[], .initial⟩
  | append_singleton events e ih =>
    rw [List.length_append, List.length_singleton] at room
    obtain ⟨stored, h⟩ := ih (by omega) fun x hx => dumps x (by simp [hx])
    have short := h.short
    rw [List.foldl_append, List.foldl_cons, List.foldl_nil]
    cases he : f.normalizeStatusFeedEvent e with
    | none =>
      have step (k : FeedKeys) : (f.addStatusEvent k e).1 = k := by
        simp only [RedisServiceEventFeedStore.addStatusEvent, he]
      rw [step]
      exact ⟨stored, h.drop (by simp [cursorOf, he])⟩
    | some item =>
      have step (k : FeedKeys) : f.addStatusEvent k e = f.store k item := by
        simp only [RedisServiceEventFeedStore.addStatusEvent, he]
      have cursor : cursorOf f e = some item.cursor := by simp [cursorOf, he]
      rw [step]
      by_cases known : item.cursor ∈ stored
      · rw [h.logged.skip known]
        exact ⟨stored, h.drop fun x hx => Option.some.inj (cursor.symm.trans hx) ▸ known⟩
      · exact ⟨_, h.keep he known (by omega) (dumps e (by simp) item he)⟩

/-- What the calls so far have left: their events in the histories and with the feed. -/
structure Histories (c : RedisStatusStore) (f : RedisServiceEventFeedStore)
    (calls : List (String × Fields Value)) (s : Stores) : Prop where
  feed : s.feed = (calls.map Prod.snd).foldl (fun k e => (f.addStatusEvent k e).1) .init
  pushed : ∀ call ∈ calls, .dict call.2 ∈ (s.keys call.1).pushed
  marked : ∀ taskId x, ((s.keys taskId).markers x).isSome →
    ∃ call ∈ calls, call.1 = taskId ∧ c.eventKey taskId (.dict call.2) = x

theorem storeAll_histories (enabled : c.serviceEventStore = true)
    {calls : List (String × Fields Value)}
    (distinct : (calls.map fun call => (call.1, c.eventToken (.dict call.2))).Nodup) :
    Histories c f calls (storeAll c f calls) := by
  induction calls using List.reverseRecOn with
  | nil => exact ⟨rfl, by simp, by simp [storeAll, Stores.init, TaskKeys.init]⟩
  | append_singleton calls call ih =>
    obtain ⟨taskId, event⟩ := call
    rw [List.map_append, List.nodup_append] at distinct
    have h := ih distinct.1
    have fresh : ((storeAll c f calls).keys taskId).markers (c.eventKey taskId (.dict event)) =
        none := by
      by_contra found
      obtain ⟨other, ho, same, key⟩ := h.marked taskId _ (Option.isSome_iff_ne_none.mpr found)
      have token := (c.eventKey_eq_iff taskId _ _).mp key
      refine distinct.2.2 _ (List.mem_map_of_mem ho) _ (List.mem_singleton.mpr rfl) ?_
      rw [same, token]
    have handed := (setHistory_fresh enabled fresh (f := f)).2
    have step : storeAll c f (calls ++ [(taskId, event)]) =
        (setHistory c f (storeAll c f calls) taskId event).1 := by
      simp [storeAll]
    rw [step]
    refine ⟨?_, fun call hc => ?_, fun other x hx => ?_⟩
    · rw [handed.feed, h.feed]
      simp
    · have kept : ∀ other, ((storeAll c f calls).keys other).pushed ⊆
          ((setHistory c f (storeAll c f calls) taskId event).1.keys other).pushed := by
        intro other
        by_cases ht : other = taskId
        · rw [ht, handed.pushed]
          exact List.subset_append_left _ _
        · rw [handed.others other ht]
          exact List.Subset.refl _
      rcases List.mem_append.mp hc with hc | hc
      · exact kept call.1 (h.pushed call hc)
      · rw [List.mem_singleton.mp hc, handed.pushed]
        simp
    · by_cases ht : other = taskId
      · subst ht
        rw [handed.markers] at hx
        by_cases hk : x = c.eventKey other (.dict event)
        · exact ⟨(other, event), by simp, rfl, hk.symm⟩
        · rw [Function.update_of_ne hk] at hx
          obtain ⟨call, hc, named, key⟩ := h.marked other x hx
          exact ⟨call, by simp [hc], named, key⟩
      · rw [handed.others other ht] at hx
        obtain ⟨call, hc, named, key⟩ := h.marked other x hx
        exact ⟨call, by simp [hc], named, key⟩

/-- Events that the status store keeps apart are all in their histories. The feed has an entry for
each of them exactly when they are identified. -/
theorem feed_entry_for_each_iff (c : RedisStatusStore) (f : RedisServiceEventFeedStore)
    (enabled : c.serviceEventStore = true) (calls : List (String × Fields Value))
    (distinct : (calls.map fun call => (call.1, c.eventToken (.dict call.2))).Nodup)
    (room : (calls.length : Int) ≤ f.feedMaxlen)
    (dumps : ∀ call ∈ calls, ∀ item, f.normalizeStatusFeedEvent call.2 = some item →
      (f.json.modelDumpJson item).isSome) :
    (∀ call ∈ calls, .dict call.2 ∈ ((storeAll c f calls).keys call.1).pushed) ∧
      (EntryEach f (storeAll c f calls).feed (calls.map Prod.snd) ↔
        Identified f (calls.map Prod.snd)) := by
  have histories : Histories c f calls (storeAll c f calls) := storeAll_histories enabled distinct
  refine ⟨histories.pushed, ?_⟩
  obtain ⟨stored, h⟩ := exists_summary (f := f) (calls.map Prod.snd) (by simpa using room)
    (by
      intro e he item hi
      obtain ⟨call, hc, rfl⟩ := List.mem_map.mp he
      exact dumps call hc item hi)
  rw [← histories.feed] at h
  have short := h.short
  have card : (storeAll c f calls).feed.index.card = stored.length := by
    have members := h.logged.members_eq (by simp only [List.length_map] at short; omega)
    rw [SortedSet.card, ← List.length_map (f := Prod.fst)]
    change (storeAll c f calls).feed.members.length = _
    rw [members, List.length_reverse]
  constructor
  · intro each
    exact h.full.mp (card.symm.trans each.count)
  · intro identified
    exact ⟨card.trans (h.full.mpr identified), h.entry identified⟩

def statusFields (taskId eventId : String) : Fields Value :=
  [("task_id", .str taskId), ("event_id", .str eventId)]

def statusItem (taskId eventId : String) (eventId_ne : eventId ≠ "") : RelaynaServiceEvent where
  cursor := eventId
  cursor_ne := eventId_ne
  taskId := taskId
  eventType := "status.unknown"
  sourceKind := .status
  component := some "status"
  timestamp := none
  eventId := some eventId
  correlationId := none
  parentTaskId := none
  payload := statusFields taskId eventId

def statusItemJson (item : RelaynaServiceEvent) : String :=
  "\x7b\"cursor\":\"" ++ item.cursor ++ "\",\"task_id\":\"" ++ item.taskId ++
    "\",\"event_type\":\"status.unknown\",\"source_kind\":\"status\"," ++
    "\"component\":\"status\",\"timestamp\":null,\"event_id\":\"" ++ item.cursor ++
    "\",\"correlation_id\":null,\"parent_task_id\":null,\"payload\":\x7b\"task_id\":\"" ++
    item.taskId ++ "\",\"event_id\":\"" ++ item.cursor ++ "\"\x7d\x7d"

theorem firstId_ne : "1" ≠ "" := by decide

theorem secondId_ne : "2" ≠ "" := by decide

/-- A feed for three events of the tasks "a" and "b". -/
def twoTaskFeed : RedisServiceEventFeedStore :=
  { plainStore with
    json := tableJson
      ([statusItem "a" "1" firstId_ne, statusItem "b" "1" firstId_ne,
        statusItem "b" "2" secondId_ne].map fun item => (item, statusItemJson item))
      (by decide +kernel) }

def twoTaskStore : RedisStatusStore := ⟨plainStore.text, "task", 50, true⟩

theorem feed_entry_for_each_iff_of_two_tasks :
    EntryEach twoTaskFeed
      (storeAll twoTaskStore twoTaskFeed
        [("a", statusFields "a" "1"), ("b", statusFields "b" "2")]).feed
      [statusFields "a" "1", statusFields "b" "2"] := by
  refine (feed_entry_for_each_iff twoTaskStore twoTaskFeed rfl
    [("a", statusFields "a" "1"), ("b", statusFields "b" "2")] (by decide +kernel)
    (by decide) ?_).2.mpr ⟨by decide +kernel, by decide +kernel⟩
  have dumps : ∀ call ∈ [("a", statusFields "a" "1"), ("b", statusFields "b" "2")],
      ((twoTaskFeed.normalizeStatusFeedEvent call.2).bind
        twoTaskFeed.json.modelDumpJson).isSome := by
    decide +kernel
  intro call hc item hi
  simpa [hi] using dumps call hc

/-- Two tasks whose first events both have the id "1". -/
theorem feed_drops_event_of_other_task :
    ¬∀ calls : List (String × Fields Value),
      (calls.map fun call => (call.1, twoTaskStore.eventToken (.dict call.2))).Nodup →
        (calls.length : Int) ≤ twoTaskFeed.feedMaxlen →
          EntryEach twoTaskFeed (storeAll twoTaskStore twoTaskFeed calls).feed
            (calls.map Prod.snd) := by
  intro h
  have each := h [("a", statusFields "a" "1"), ("b", statusFields "b" "1")] (by decide +kernel)
    (by decide)
  have one : (storeAll twoTaskStore twoTaskFeed
      [("a", statusFields "a" "1"), ("b", statusFields "b" "1")]).feed.index.card = 1 := by
    decide +kernel
  exact absurd (one.symm.trans each.count) (by decide)

end Relayna.Status
