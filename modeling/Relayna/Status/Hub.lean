import Relayna.Contracts.Transport
import Relayna.Foundation.FairLock
import Relayna.Foundation.Transition

/-!
# The handlers of `StatusHub`

`run_bounded_iterator` makes a task for each message it fetches, and the event loop lets tasks
begin in the order in which they were made. A handler runs without an await from its beginning
to the lock of its task, so its first step includes all of `_store_ordered` up to there. Then it
waits for the lock, is in `set_history`, or has left `_store_ordered` and settles its message.

Messages are numbered in the order of delivery, over all runs of the dispatcher. The entries of
the lock table are objects: they are numbered as they are made, and two of them are never the
same. `writes` is history: the calls of `set_history` in the order in which they began.
-/
namespace Relayna.Status

open Transition FairLock Contracts Python

structure StatusHub where
  codec : Codec
  aliasConfig : Option ContractAliasConfig
  sanitizeMetaKeys : List String
  prefetch : Nat

/-- What a handler passes to `_store_ordered`. -/
structure StoreCall where
  taskId : String
  data : Fields Value

/-- `_handle_message` up to `_store_ordered`, or `none` where it acknowledges the message
instead: it is malformed or names no task. -/
def StatusHub.storeCall (hub : StatusHub) (body : Bytes) : Option StoreCall :=
  match hub.codec.parseTransportJson body with
  | .ok (.dict payload) =>
    let data := normalizeContractAliases hub.codec.text payload hub.aliasConfig
    let data := match data.lookup "meta" with
      | some (.dict fields) =>
        data.set "meta" (.dict (hub.sanitizeMetaKeys.foldl Fields.pop fields))
      | _ => data
    let taskId := strip (hub.codec.text.str ((data.lookup "task_id").getD (.str "")))
    if taskId = "" then none else some ⟨taskId, data⟩
  | _ => none

/-- `_TaskLockEntry`. -/
structure TaskLockEntry where
  lock : Lock Nat
  users : Nat
  deriving DecidableEq, Repr

def TaskLockEntry.fresh : TaskLockEntry := ⟨.free, 0⟩

/-- Where the task of a message is. What it awaits while it settles the message is its `ack` or
`reject` and an observation. -/
inductive Phase where
  | unstarted
  | waiting (call : StoreCall) (entry : Nat)
  | storing (call : StoreCall) (entry : Nat)
  | settling (stored : Bool)
  | finished

/-- The task and the entry of a handler inside `_store_ordered`. -/
def Phase.inside : Phase → Option (String × Nat)
  | .waiting call entry | .storing call entry => some (call.taskId, entry)
  | _ => none

def Phase.isFinished : Phase → Bool
  | .finished => true
  | _ => false

/-- Where `run_bounded_iterator` is: it waits for the semaphore, for the next message, or for
its tasks, in the clause that cancels them or in the `finally` block. -/
inductive Dispatcher where
  | idle
  | acquiring
  | fetching
  | cancelling
  | draining
  deriving DecidableEq, Repr

/-- The handlers and the locks they share. -/
structure Handlers where
  started : Nat
  phase : Nat → Phase
  taskLocks : String → Option Nat
  entries : Nat → TaskLockEntry
  allocated : Nat
  writes : List (Nat × StoreCall)

namespace Handlers

def init : Handlers := ⟨0, fun _ => .unstarted, fun _ => none, fun _ => .fresh, 0, []⟩

variable (s : Handlers)

def move (i : Nat) (phase : Phase) : Handlers :=
  { s with phase := Function.update s.phase i phase }

/-- `entry = self._task_locks.get(task_id)`, or a new one in its place. -/
def taskLock (taskId : String) : Handlers × Nat :=
  match s.taskLocks taskId with
  | some entry => (s, entry)
  | none =>
    ({ s with
        taskLocks := Function.update s.taskLocks taskId (some s.allocated)
        entries := Function.update s.entries s.allocated .fresh
        allocated := s.allocated + 1 },
      s.allocated)

/-- One more user asks for the lock of the entry and has it at once or waits. -/
def join (i : Nat) (call : StoreCall) (entry : Nat) : Handlers :=
  let old := s.entries entry
  let t := { s with
    entries := Function.update s.entries entry ⟨old.lock.request i, old.users + 1⟩ }
  if old.lock.idle then
    { t.move i (.storing call entry) with writes := s.writes ++ [(i, call)] }
  else t.move i (.waiting call entry)

/-- `_store_ordered` up to its first await. -/
def storeOrdered (i : Nat) (call : StoreCall) : Handlers :=
  let (t, entry) := s.taskLock call.taskId
  t.join i call entry

/-- The way out of `_store_ordered`: the lock is released or no longer waited for, and the last
user takes the entry out of the table. -/
def leave (i : Nat) (taskId : String) (entry : Nat) : Handlers :=
  let old := s.entries entry
  let users := old.users - 1
  let t := { s with entries := Function.update s.entries entry ⟨old.lock.leave i, users⟩ }
  if users = 0 ∧ t.taskLocks taskId = some entry then
    { t with taskLocks := Function.update t.taskLocks taskId none }
  else t

/-- The first of those who wait for a lock resumes and calls `set_history`. -/
def acquire (i : Nat) : Option Handlers :=
  match s.phase i with
  | .waiting call entry =>
    ((s.entries entry).lock.grant i).map fun lock =>
      { s.move i (.storing call entry) with
        entries := Function.update s.entries entry { s.entries entry with lock }
        writes := s.writes ++ [(i, call)] }
  | _ => none

end Handlers

structure Hub extends Handlers where
  dispatcher : Dispatcher
  run : Nat
  permits : Nat
  firstError : Bool
  delivered : List (Bytes × Nat)
  cancelRequested : Nat → Bool

namespace Hub

def init : Hub := ⟨.init, .idle, 0, 0, false, [], fun _ => false⟩

variable (s : Hub)

/-- The task of the message belongs to the dispatcher's present run. -/
def current (i : Nat) : Bool := (s.delivered[i]?).any (·.2 == s.run)

def inFlight : Bool :=
  (List.range s.delivered.length).any fun i => s.current i && !(s.phase i).isFinished

/-- What the messages delivered so far pass to `_store_ordered`. -/
def calls (hub : StatusHub) (i : Nat) : Option StoreCall :=
  (s.delivered[i]?).bind fun message => hub.storeCall message.1

/-- `task.cancel()` for every task in flight. -/
def cancelAll : Hub :=
  { s with cancelRequested := fun i => s.cancelRequested i || s.current i }

/-- `run_item` and `record_completion` at the end of a handler. -/
def finish (i : Nat) (raised : Bool) (handlers : Handlers) : Hub :=
  let t := { s with toHandlers := handlers.move i .finished }
  if s.current i then
    { t with permits := t.permits + 1, firstError := t.firstError || raised }
  else t

/-- A task begins. One that has been cancelled before never enters its coroutine. -/
def begin (hub : StatusHub) (i : Nat) : Option Hub :=
  match s.delivered[i]? with
  | none => none
  | some (body, _) =>
    if i ≠ s.started then none
    else
      let t := { s.toHandlers with started := s.started + 1 }
      let u := if s.cancelRequested i then t.move i .finished
        else match hub.storeCall body with
          | none => t.move i (.settling true)
          | some call => t.storeOrdered i call
      some { s with toHandlers := u }

/-- `set_history` returns or raises. -/
def stored (i : Nat) (ok : Bool) : Option Hub :=
  match s.phase i with
  | .storing call entry =>
    some { s with toHandlers := (s.leave i call.taskId entry).move i (.settling ok) }
  | _ => none

/-- The handler has settled its message, or an exception ends it. -/
def settled (i : Nat) (raised : Bool) : Option Hub :=
  match s.phase i with
  | .settling _ => some (s.finish i raised s.toHandlers)
  | _ => none

/-- The cancellation reaches the handler at its await. -/
def interrupt (i : Nat) : Option Hub :=
  if s.cancelRequested i then
    match s.phase i with
    | .waiting call entry | .storing call entry =>
      some (s.finish i false (s.leave i call.taskId entry))
    | .settling _ => some (s.finish i false s.toHandlers)
    | _ => none
  else none

end Hub

inductive HandlerStep where
  /-- `run_bounded_iterator` is called for the next channel. -/
  | run
  /-- The loop condition or the one after the semaphore has been acquired sees the stop event. -/
  | stop
  | acquireSemaphore
  | deliver (body : Bytes)
  /-- `anext` ends or fails. -/
  | fetchFails
  | fetchTimesOut
  | cancelDispatcher
  | drained
  | begin (i : Nat)
  | acquire (i : Nat)
  | stored (i : Nat) (ok : Bool)
  | settled (i : Nat) (raised : Bool)
  /-- Somebody else cancels the handler's task. -/
  | cancel (i : Nat)
  | interrupt (i : Nat)

open Hub in
def handlerMachine (hub : StatusHub) : Machine Hub HandlerStep where
  next s l := match l with
    | .run =>
      if s.dispatcher = .idle then
        some { s with
          dispatcher := .acquiring
          run := s.run + 1
          permits := hub.prefetch
          firstError := false }
      else none
    | .stop => if s.dispatcher = .acquiring then some { s with dispatcher := .draining } else none
    | .acquireSemaphore =>
      if s.dispatcher = .acquiring ∧ 0 < s.permits then
        if s.firstError then some { s with dispatcher := .draining }
        else some { s with dispatcher := .fetching, permits := s.permits - 1 }
      else none
    | .deliver body =>
      if s.dispatcher = .fetching then
        some { s with dispatcher := .acquiring, delivered := s.delivered ++ [(body, s.run)] }
      else none
    | .fetchFails =>
      if s.dispatcher = .fetching then
        some { s with dispatcher := .draining, permits := s.permits + 1 }
      else none
    | .fetchTimesOut =>
      if s.dispatcher = .fetching then
        some { s with
          dispatcher := if s.inFlight then .acquiring else .draining
          permits := s.permits + 1 }
      else none
    | .cancelDispatcher =>
      match s.dispatcher with
      | .idle => none
      | .acquiring => some { s.cancelAll with dispatcher := .cancelling }
      | .fetching => some { s.cancelAll with dispatcher := .cancelling, permits := s.permits + 1 }
      | .cancelling => some { s.cancelAll with dispatcher := .draining }
      | .draining => some { s.cancelAll with dispatcher := .idle }
    | .drained =>
      if s.inFlight then none
      else match s.dispatcher with
        | .cancelling => some { s with dispatcher := .draining }
        | .draining => some { s with dispatcher := .idle }
        | _ => none
    | .begin i => s.begin hub i
    | .acquire i => (s.acquire i).map fun handlers => { s with toHandlers := handlers }
    | .stored i ok => s.stored i ok
    | .settled i raised => s.settled i raised
    | .cancel i => some { s with cancelRequested := Function.update s.cancelRequested i true }
    | .interrupt i => s.interrupt i

end Relayna.Status
