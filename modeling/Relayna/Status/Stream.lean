import Relayna.Contracts.Transport
import Relayna.Status.Store

/-!
# The SSE stream of one task

`SSEStatusStream.stream` subscribes to the task's channel, reads the history, replays it and
goes on with the messages of the channel. A status event can reach it by either way or by both,
so it remembers the ids it has sent. The system is one such stream beside the publisher of the
task's events, which runs `set_history` for one event after the other.

The stream looks at events only in their public form, after the output adapter and the aliases:
the id it remembers and the status that ends it are those of the public form.
-/
namespace Relayna.Status

open Contracts Python Storage Transition

/-- `dict(item)` of a stored event; `set_history` takes dictionaries only. -/
def entries : Value → Fields Value
  | .dict fields => fields
  | _ => []

/-- `_event_id`. -/
def eventId (data : Fields Value) : Option String :=
  match data.lookup "event_id" with
  | some (.str value) => nonEmpty (strip value)
  | _ => none

/-- What `_sse_event` encodes. -/
structure Frame where
  id : Option String
  eventType : String
  data : Fields Value

def sseEvent (data : Fields Value) : Frame := ⟨eventId data, "status", data⟩

/-- `lower` is `str.lower`. -/
structure SSEStatusStream where
  store : RedisStatusStore
  lower : String → String
  terminalStatuses : List String
  outputAdapter : Fields Value → Fields Value
  aliasConfig : Option ContractAliasConfig

namespace SSEStatusStream

variable (s : SSEStatusStream)

/-- `TerminalStatusSet.is_terminal`; `none` is the `AttributeError` of a status without
`lower`. -/
def isTerminal (status : Option Value) : Option Bool :=
  match status with
  | none => some false
  | some v =>
    if !v.truthy then some false
    else match v with
      | .str text => some (decide (s.lower text ∈ s.terminalStatuses.map s.lower))
      | .bytes _ => some false
      | _ => none

/-- `_to_public_event`. -/
def toPublicEvent (data : Fields Value) : Fields Value :=
  publicOutputAliases (s.outputAdapter data) s.aliasConfig

def publicEvent (item : Value) : Fields Value := s.toPublicEvent (entries item)

def frame (item : Value) : Frame := sseEvent (s.publicEvent item)

/-- The id under which an event is sent. -/
def publicId (item : Value) : Option String := eventId (s.publicEvent item)

/-- Whether the event ends the stream. -/
def showsTerminal (item : Value) : Option Bool :=
  s.isTerminal ((s.publicEvent item).lookup "status")

/-- Whether the event as it was stored has a terminal status. -/
def hasTerminal (item : Value) : Option Bool := s.isTerminal (item.get "status")

end SSEStatusStream

/-- The part of the history that is replayed. -/
def replayAfter (lastEventId : Option String) (items : List Value) : List Value :=
  match lastEventId with
  | none => items
  | some last =>
    match items.findIdx? fun item => eventId (entries item) == some last with
    | some index => items.drop (index + 1)
    | none => items

/-- The next thing the generator does; at `replaying []` it enters its live loop. -/
inductive Stage where
  | subscribe
  | readHistory
  | replaying (items : List Value)
  | live
  | ended

/-- The channel keeps every message ever published; the subscriber has those from `position` on
before it. `read` and `sent` are history: what the stream found in the list and the events whose
frames it has yielded. -/
structure Streaming where
  keys : TaskKeys
  todo : List Value
  call : Option (Value × SetHistory)
  stage : Stage
  position : Nat
  seen : List String
  frames : List Frame
  read : Option (List Value)
  sent : List Value

namespace Streaming

def init (events : List Value) : Streaming :=
  ⟨.init, events, none, .subscribe, 0, [], [], none, []⟩

/-- The place of the publisher after a command of `set_history` for `e`. -/
def afterAwait (e : Value) (p : SetHistory) : Option (Value × SetHistory) :=
  if p = .returned then none else some (e, p)

/-- The publisher begins with its next event or awaits one command of `set_history`. -/
def publish (c : RedisStatusStore) (taskId : String) (t : Streaming) : Option Streaming :=
  match t.call with
  | none =>
    match t.todo with
    | [] => none
    | e :: rest => some { t with todo := rest, call := some (e, .setPending) }
  | some (e, p) =>
    let after := SetHistory.await c taskId e t.keys p .ok
    some { t with keys := after.2, call := afterAwait e after.1 }

/-- Yield the frame of an event, remember its id, and return if it is terminal. What is yielded
and what is looked at is the public form. -/
def emit (s : SSEStatusStream) (item : Value) (next : Stage) (t : Streaming) : Streaming :=
  { t with
    seen := (s.publicId item).toList ++ t.seen
    frames := t.frames ++ [s.frame item]
    sent := t.sent ++ [item]
    stage := if s.showsTerminal item = some false then next else .ended }

/-- A message of the channel in the live loop. -/
def receive (s : SSEStatusStream) (item : Value) (t : Streaming) : Streaming :=
  match s.publicId item with
  | some id => if id ∈ t.seen then t else t.emit s item .live
  | none => t.emit s item .live

def advance (s : SSEStatusStream) (lastEventId : Option String) (t : Streaming) :
    Option Streaming :=
  match t.stage with
  | .subscribe => some { t with stage := .readHistory, position := t.keys.channel.length }
  | .readHistory =>
    let items := (s.store.getHistory t.keys none).reverse
    some { t with stage := .replaying (replayAfter lastEventId items), read := some items }
  | .replaying [] => some { t with stage := .live }
  | .replaying (item :: rest) => some (t.emit s item (.replaying rest))
  | .live => (t.keys.channel[t.position]?).map fun item =>
    { t with position := t.position + 1 }.receive s item
  | .ended => none

end Streaming

inductive StreamStep where
  | publisher
  | stream
  /-- No message within the keepalive interval, or one that is no status event. -/
  | keepalive
  /-- The client goes away or a command of the stream raises. -/
  | stop
  deriving DecidableEq, Repr

/-- `stream(task_id, last_event_id=last_event_id)` beside the publisher. -/
def streaming (s : SSEStatusStream) (taskId : String) (lastEventId : Option String) :
    Machine Streaming StreamStep where
  next t l := match l with
    | .publisher => t.publish s.store taskId
    | .stream => t.advance s lastEventId
    | .keepalive => match t.stage with
      | .live => some t
      | _ => none
    | .stop => some { t with stage := .ended }

end Relayna.Status
