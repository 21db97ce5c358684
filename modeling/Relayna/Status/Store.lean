import Relayna.Foundation.Transition
import Relayna.Storage.Keys

/-!
# The Redis status store

`RedisStatusStore.set_history` pushes a status event to its task's history list once. A
marker key per event records how far the event has come: `pending` after the call that
inserted it, `complete` after everything is written. The call that inserted the marker
pushes; a call that finds `pending` skips the push and finishes the rest; a failed push
deletes the marker again, so that a redelivery starts afresh.

`SetHistory` is the place of one call between two awaited Redis commands and `await` is one
command: it takes effect, or raises and takes none. Key expiry is not modelled.
-/
namespace Relayna.Status

open Python Storage

structure RedisStatusStore where
  text : Text
  keyPrefix : String
  historyMaxlen : Int
  serviceEventStore : Bool

namespace RedisStatusStore

variable (c : RedisStatusStore)

/-- What identifies an event within its task. -/
def eventToken (event : Value) : String :=
  match event.get "event_id" with
  | some (.str eventId) =>
    if strip eventId ≠ "" then strip eventId else c.text.sha256 (c.text.dumps event)
  | _ => c.text.sha256 (c.text.dumps event)

def eventKey (taskId : String) (event : Value) : String :=
  redisKey c.text c.keyPrefix ("status:" ++ taskId) ["event", taskId, c.eventToken event]

/-- For one task, marker keys and event tokens correspond. -/
theorem eventKey_eq_iff (taskId : String) (e f : Value) :
    c.eventKey taskId e = c.eventKey taskId f ↔ c.eventToken e = c.eventToken f := by
  constructor
  · exact redisKey_last_injective c.text c.keyPrefix _ _ _
  · intro h
    simp only [eventKey, h]

/-- `_parent_task_id`: the parent named in the event's `meta`, unless it is the task itself. -/
def parentTaskId (event : Value) : Option String :=
  match event.get "meta" with
  | some (.dict fields) =>
    let parent := c.text.stripped (fields.lookup "parent_task_id")
    if parent = "" ∨ parent = c.text.stripped (event.get "task_id") then none else some parent
  | _ => none

end RedisStatusStore

inductive Marker where
  | pending
  | complete
  deriving DecidableEq, Repr

/-- The keys of one task. `pushed` is history: every event ever pushed, oldest first. -/
structure TaskKeys where
  markers : String → Option Marker
  history : List Value
  children : String → List String
  feed : List Value
  channel : List Value
  pushed : List Value

def TaskKeys.init : TaskKeys := ⟨fun _ => none, [], fun _ => [], [], [], []⟩

/-- The next command of a `set_history` call, or how the call ended. -/
inductive SetHistory where
  | setPending
  | getMarker
  | push
  | deleteMarker
  | addChild
  | addStatusEvent
  | publish
  | setComplete
  | returned
  | raised
  deriving DecidableEq, Repr

namespace SetHistory

variable (c : RedisStatusStore)

def afterChild : SetHistory := if c.serviceEventStore then .addStatusEvent else .publish

def afterHistory (event : Value) : SetHistory :=
  if (c.parentTaskId event).isSome then .addChild else afterChild c

/-- One awaited command of `set_history(task_id, event)` and what the call does up to the next. -/
def await (taskId : String) (event : Value) (k : TaskKeys) :
    SetHistory → Reply → SetHistory × TaskKeys
  | .setPending, .ok =>
    if (k.markers (c.eventKey taskId event)).isNone then
      (.push,
        { k with markers := Function.update k.markers (c.eventKey taskId event) (some .pending) })
    else (.getMarker, k)
  | .getMarker, .ok =>
    if k.markers (c.eventKey taskId event) = some .complete then (.returned, k)
    else (afterHistory c event, k)
  | .push, .ok =>
    (afterHistory c event,
      { k with
        history := ltrim (event :: k.history) 0 (c.historyMaxlen - 1)
        pushed := k.pushed ++ [event] })
  | .push, .exception => (.deleteMarker, k)
  | .deleteMarker, .ok =>
    (.raised, { k with markers := Function.update k.markers (c.eventKey taskId event) none })
  | .addChild, .ok =>
    (afterChild c,
      { k with
        children := fun parent =>
          if c.parentTaskId event = some parent then (k.children parent).insert taskId
          else k.children parent })
  | .addStatusEvent, .ok => (.publish, { k with feed := k.feed ++ [event] })
  | .publish, .ok => (.setComplete, { k with channel := k.channel ++ [event] })
  | .setComplete, .ok =>
    (.returned,
      { k with markers := Function.update k.markers (c.eventKey taskId event) (some .complete) })
  | .returned, _ => (.returned, k)
  | _, _ => (.raised, k)

end SetHistory

/-- `get_history(task_id, limit)`. -/
def RedisStatusStore.getHistory (c : RedisStatusStore) (k : TaskKeys) (limit : Option Int) :
    List Value :=
  lrange k.history 0 (max 0 (limit.getD c.historyMaxlen - 1))

end Relayna.Status
