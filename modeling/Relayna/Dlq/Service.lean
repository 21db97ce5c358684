import Relayna.Foundation.Base64
import Relayna.Foundation.Transition
import Relayna.Storage.Keys

/-!
# Dead-letter records and the operations on them

`DLQService` changes a stored record by reading it, building a whole new record from the copy
and writing that back. Only replay takes a lock, a Redis key that is set if absent and deleted
without a check of who holds it.

`Call` is the place of one operation between two awaited commands on the record `dlq_id`, and
`Call.await` is one command. The record is kept with the fields the operations read or write.
The lock key's value carries no owner; the model adds one, which no step reads.
-/
namespace Relayna.Dlq

open Python Storage Transition

inductive DLQRecordState where
  | deadLettered
  | replayed
  deriving DecidableEq, Repr

inductive FailedTaskInvestigationStatus where
  | unreviewed
  | investigated
  deriving DecidableEq, Repr

inductive FailedTaskRetryStatus where
  | notRetried
  | retried
  deriving DecidableEq, Repr

structure DLQRecord where
  dlqId : String
  sourceQueueName : String
  retryQueueName : String
  taskId : Option String
  correlationId : Option String
  headers : Dict
  contentType : Option String
  rawBodyB64 : String
  deadLetteredAt : Int
  failedAt : Option Int
  status : String
  payloadAvailable : Bool
  state : DLQRecordState
  replayCount : Int
  replayedAt : Option Int
  replayTargetQueueName : Option String
  investigationStatus : FailedTaskInvestigationStatus
  investigatedAt : Option Int
  investigatedBy : Option String
  investigationNote : Option String
  retryStatus : FailedTaskRetryStatus
  retriedAt : Option Int
  retriedBy : Option String
  retriedTaskId : Option String
  retryTargetQueue : Option String
  retryNote : Option String

/-- `_failed_score`. -/
def DLQRecord.failedScore (r : DLQRecord) : Int := r.failedAt.getD r.deadLetteredAt

/-- The update an operation makes to the copy it has read. -/
inductive Change where
  | replayed (replayedAt : Int) (targetQueueName : String)
  | retried (retriedAt : Int) (retriedBy : String) (retriedTaskId : Option String)
      (targetQueue : String) (note : Option String)
  | investigated (investigatedAt : Int) (investigatedBy : String) (note : Option String)
  | uninvestigated
  deriving DecidableEq, Repr

/-- `record.model_copy(update=...)`. -/
def Change.apply : Change → DLQRecord → DLQRecord
  | .replayed replayedAt targetQueueName, r =>
    { r with
      state := .replayed
      replayCount := r.replayCount + 1
      replayedAt := some replayedAt
      replayTargetQueueName := some targetQueueName }
  | .retried retriedAt retriedBy retriedTaskId targetQueue note, r =>
    { r with
      retryStatus := .retried
      retriedAt := some retriedAt
      retriedBy := some retriedBy
      retriedTaskId := retriedTaskId
      retryTargetQueue := some targetQueue
      retryNote := note }
  | .investigated investigatedAt investigatedBy note, r =>
    { r with
      investigationStatus := .investigated
      investigatedAt := some investigatedAt
      investigatedBy := some investigatedBy
      investigationNote := note }
  | .uninvestigated, r =>
    { r with
      investigationStatus := .unreviewed
      investigatedAt := none
      investigatedBy := none
      investigationNote := none }

/-- A message for `publish_raw_to_queue`. -/
structure Publication where
  queueName : String
  body : Bytes
  correlationId : Option String
  headers : Dict
  contentType : Option String

/-- The conversions to text and to JSON that the service calls. -/
structure DLQService where
  text : Text
  isoformat : Int → String
  encodeTransportJson : Value → Option Bytes

structure FailedTaskRetryRequest where
  targetQueue : Option String
  overridePayload : Value
  retriedBy : Option String
  note : Option String

/-- `value or default`. -/
def orElse (value : Option String) (default : String) : String :=
  match value with
  | some v => if v = "" then default else v
  | none => default

def renameHeader (headers : Dict) (old new : String) : Dict :=
  match headers old with
  | some v => headers.set new v
  | none => headers

namespace DLQService

variable (c : DLQService)

def replayHeaders (r : DLQRecord) (replayedAt : Int) : Dict :=
  let headers := renameHeader r.headers "x-relayna-retry-attempt" "x-relayna-original-retry-attempt"
  let headers := renameHeader headers "x-relayna-failure-reason" "x-relayna-original-failure-reason"
  let headers := renameHeader headers "x-relayna-exception-type" "x-relayna-original-exception-type"
  let headers := headers.set "x-relayna-replayed-from-dlq" (.bool true)
  let headers := headers.set "x-relayna-dlq-id" (.str r.dlqId)
  let headers := headers.set "x-relayna-replayed-at" (.str (c.isoformat replayedAt))
  let headers := headers.set "x-relayna-retry-attempt" (.int 0)
  (headers.pop "x-relayna-failure-reason").pop "x-relayna-exception-type"

def replayPublication (r : DLQRecord) (replayedAt : Int) : Option Publication :=
  (b64decode r.rawBodyB64).map fun body =>
    ⟨r.retryQueueName, body, r.correlationId, c.replayHeaders r replayedAt, r.contentType⟩

/-- `_retry_payload_bytes`. -/
def retryPayloadBytes (r : DLQRecord) : Value → Option Bytes
  | .none => b64decode r.rawBodyB64
  | .str s => some s.toUTF8.data.toList
  | overridePayload => c.encodeTransportJson overridePayload

/-- `_task_id_from_payload`. -/
def taskIdFromPayload (payload : Value) : Option String :=
  match payload.get "task_id" with
  | some .none | none => none
  | some v => some (c.text.str v)

def retryHeaders (failureId : String) (r : DLQRecord) (retriedAt : Int) : Dict :=
  let headers := r.headers.set "x-relayna-manual-retry-from-failure-id" (.str failureId)
  let headers := headers.set "x-relayna-manual-retry-at" (.str (c.isoformat retriedAt))
  let headers := headers.set "x-relayna-retry-attempt" (.int 0)
  (headers.pop "x-relayna-failure-reason").pop "x-relayna-exception-type"

def retryPublication (failureId : String) (r : DLQRecord) (request : FailedTaskRetryRequest)
    (retriedAt : Int) : Option Publication :=
  (c.retryPayloadBytes r request.overridePayload).map fun payload =>
    ⟨orElse request.targetQueue r.sourceQueueName, payload, r.correlationId,
      c.retryHeaders failureId r retriedAt, r.contentType⟩

def retryChange (r : DLQRecord) (request : FailedTaskRetryRequest) (retriedAt : Int) : Change :=
  let retriedTaskId := match request.overridePayload with
    | .none => r.taskId
    | overridePayload => c.taskIdFromPayload overridePayload
  .retried retriedAt (orElse request.retriedBy "operator") retriedTaskId
    (orElse request.targetQueue r.sourceQueueName) request.note

end DLQService

structure DLQReplayResult where
  dlqId : String
  targetQueueName : String
  state : DLQRecordState
  replayedAt : Int
  replayCount : Int
  forced : Bool
  deriving DecidableEq, Repr

inductive RejectionCode where
  | manualRetryNotAllowed
  | manualRetryPayloadUnavailable
  deriving DecidableEq, Repr

/-- How an operation ends. `detail` is the record a `FailedTaskDetail` is built from. -/
inductive Outcome where
  | notFound
  | replayed (result : DLQReplayResult)
  | retried (change : Change)
  | detail (record : Option DLQRecord)
  | deleted (existed : Bool)
  | replayConflict (inProgress : Bool)
  | rejected (code : RejectionCode)
  | raised

/-- The operations on one record. `retry_failed_task` without a request uses the defaults. -/
inductive Operation where
  | replayMessage (force : Bool)
  | retryFailedTask (request : FailedTaskRetryRequest)
  | markFailedTaskInvestigated (investigatedBy note : Option String)
  | markFailedTaskUninvestigated
  | deleteFailedTask

/-- The command an operation awaits next, with what it has read so far. -/
inductive Call where
  | setReplayLock (force : Bool)
  | getForReplay (force : Bool)
  | publishReplay (force : Bool) (read : DLQRecord) (replayedAt : Int) (message : Publication)
  | getReplayed (force : Bool) (replayedAt : Int) (targetQueueName : String)
  | setReplayed (force : Bool) (read : DLQRecord) (change : Change) (replayedAt : Int)
  | deleteReplayLock (outcome : Outcome)
  | getForRetry (request : FailedTaskRetryRequest)
  | publishRetry (read : DLQRecord) (change : Change) (message : Publication)
  | getForInvestigation (change : Int → Change)
  | setUpdated (read : DLQRecord) (change : Change) (outcome : Option Outcome)
  | indexUpdated (updated : DLQRecord) (outcome : Option Outcome)
  | getDetail
  | deleteRecord
  | deleteIndex (existed : Bool)
  | ended (outcome : Outcome)

/-- The keys of one record, what has been published for it and what has been written to it. -/
structure RecordKeys where
  record : Option DLQRecord
  index : Option Int
  lock : Option Nat
  sent : List (Nat × Publication)
  writes : List (Nat × Change)

def Operation.call : Operation → Call
  | .replayMessage force => .setReplayLock force
  | .retryFailedTask request => .getForRetry request
  | .markFailedTaskInvestigated investigatedBy note =>
    .getForInvestigation fun now => .investigated now (orElse investigatedBy "operator") note
  | .markFailedTaskUninvestigated => .getForInvestigation fun _ => .uninvestigated
  | .deleteFailedTask => .deleteRecord

namespace Call

variable (c : DLQService) (dlqId : String)

/-- `claim_replay` after its `GET`, and `replay_message` up to its publish. -/
def claimed (force : Bool) (now : Int) : Option DLQRecord → Call
  | none => .deleteReplayLock .notFound
  | some r =>
    if r.state = .replayed ∧ force = false then .deleteReplayLock (.replayConflict false)
    else match c.replayPublication r now with
      | some message => .publishReplay force r now message
      | none => .deleteReplayLock .raised

/-- `mark_replayed` after its `GET`. -/
def marked (force : Bool) (replayedAt : Int) (targetQueueName : String) : Option DLQRecord → Call
  | none => .deleteReplayLock .notFound
  | some r => .setReplayed force r (.replayed replayedAt targetQueueName) replayedAt

def replayResult (force : Bool) (updated : DLQRecord) (replayedAt : Int) : DLQReplayResult :=
  ⟨updated.dlqId, updated.retryQueueName, updated.state, updated.replayedAt.getD replayedAt,
    updated.replayCount, force⟩

/-- `retry_failed_task` after its `GET`, up to its publish. -/
def retryChecked (request : FailedTaskRetryRequest) (now : Int) : Option DLQRecord → Call
  | none => .ended .notFound
  | some r =>
    if r.status ∉ ["DLQ", "retry_exhausted", "terminal_failed"] then
      .ended (.rejected .manualRetryNotAllowed)
    else if r.payloadAvailable = false ∨ r.rawBodyB64 = "" then
      .ended (.rejected .manualRetryPayloadUnavailable)
    else match c.retryPublication dlqId r request now with
      | some message => .publishRetry r (c.retryChange r request now) message
      | none => .ended .raised

def investigationRead (change : Change) : Option DLQRecord → Call
  | none => .ended .notFound
  | some r => .setUpdated r change none

/-- One awaited command of the `n`-th call and what the call does up to the next. A replay that
fails after its claim deletes the lock, also when it is cancelled; `claim_replay` itself does so
only for an `Exception`. -/
def await (n : Nat) (now : Int) (k : RecordKeys) : Call → Reply → Call × RecordKeys
  | .setReplayLock force, .ok =>
    if k.lock.isNone then (.getForReplay force, { k with lock := some n })
    else (.ended (.replayConflict true), k)
  | .getForReplay force, .ok => (claimed c force now k.record, k)
  | .getForReplay _, .exception => (.deleteReplayLock .raised, k)
  | .publishReplay force r replayedAt message, .ok =>
    (.getReplayed force replayedAt r.retryQueueName, { k with sent := k.sent ++ [(n, message)] })
  | .getReplayed force replayedAt target, .ok => (marked force replayedAt target k.record, k)
  | .setReplayed force r change replayedAt, .ok =>
    (.deleteReplayLock (.replayed (replayResult force (change.apply r) replayedAt)),
      { k with record := some (change.apply r), writes := k.writes ++ [(n, change)] })
  | .publishReplay .., _ | .getReplayed .., _ | .setReplayed .., _ =>
    (.deleteReplayLock .raised, k)
  | .deleteReplayLock outcome, .ok => (.ended outcome, { k with lock := none })
  | .getForRetry request, .ok => (retryChecked c dlqId request now k.record, k)
  | .publishRetry r change message, .ok =>
    (.setUpdated r change (some (.retried change)), { k with sent := k.sent ++ [(n, message)] })
  | .getForInvestigation change, .ok => (investigationRead (change now) k.record, k)
  | .setUpdated r change outcome, .ok =>
    (.indexUpdated (change.apply r) outcome,
      { k with record := some (change.apply r), writes := k.writes ++ [(n, change)] })
  | .indexUpdated updated outcome, .ok =>
    (match outcome with
      | some outcome => .ended outcome
      | none => .getDetail,
      { k with index := some updated.failedScore })
  | .getDetail, .ok => (.ended (.detail k.record), k)
  | .deleteRecord, .ok => (.deleteIndex k.record.isSome, { k with record := none })
  | .deleteIndex existed, .ok => (.ended (.deleted existed), { k with index := none })
  | .ended outcome, _ => (.ended outcome, k)
  | _, _ => (.ended .raised, k)

end Call

/-- Any number of operations on one record, interleaved at their commands. -/
structure Operators where
  keys : RecordKeys
  calls : Nat → Option Call

def Operators.init (r : DLQRecord) : Operators :=
  ⟨⟨some r, some r.failedScore, none, [], []⟩, fun _ => none⟩

inductive OperatorStep where
  | start (n : Nat) (operation : Operation)
  | await (n : Nat) (now : Int) (reply : Reply)
  | lockExpires

def operators (c : DLQService) (dlqId : String) : Machine Operators OperatorStep where
  next s l := match l with
    | .start n operation =>
      if (s.calls n).isNone then
        some { s with calls := Function.update s.calls n (some operation.call) }
      else none
    | .await n now reply => (s.calls n).map fun call =>
      let after := call.await c dlqId n now s.keys reply
      ⟨after.2, Function.update s.calls n (some after.1)⟩
    | .lockExpires => some { s with keys := { s.keys with lock := none } }

/-! ## Every operation ends -/

/-- An upper bound on the commands a call still awaits. -/
def Call.remaining : Call → Nat
  | .setReplayLock _ => 6
  | .getForReplay _ => 5
  | .publishReplay .. => 4
  | .getReplayed .. => 3
  | .setReplayed .. => 2
  | .deleteReplayLock _ => 1
  | .getForRetry _ => 5
  | .publishRetry .. => 4
  | .getForInvestigation _ => 4
  | .setUpdated .. => 3
  | .indexUpdated .. => 2
  | .getDetail => 1
  | .deleteRecord => 2
  | .deleteIndex _ => 1
  | .ended _ => 0

theorem Call.remaining_await (c : DLQService) (dlqId : String) (n : Nat) (now : Int)
    (k : RecordKeys) (p : Call) (running : p.remaining ≠ 0) :
    (p.await c dlqId n now k .ok).1.remaining < p.remaining := by
  cases p with
  | setReplayLock force =>
    simp only [await]
    split <;> simp [remaining]
  | getForReplay force =>
    simp only [await, claimed]
    split
    · simp [remaining]
    · split
      · simp [remaining]
      · split <;> simp [remaining]
  | getReplayed force replayedAt target =>
    simp only [await, marked]
    split <;> simp [remaining]
  | getForRetry request =>
    simp only [await, retryChecked]
    split
    · simp [remaining]
    · repeat' split
      all_goals simp [remaining]
  | getForInvestigation change =>
    simp only [await, investigationRead]
    split <;> simp [remaining]
  | indexUpdated updated outcome => cases outcome <;> simp [await, remaining]
  | ended outcome => simp [remaining] at running
  | _ => simp [await, remaining]

/-- From any state, a call that is let run on ends. -/
theorem operators_call_ends (c : DLQService) (dlqId : String) {s : Operators} {n : Nat} {p : Call}
    (hn : s.calls n = some p) :
    ∃ nows : List Int, ∃ t outcome,
      (operators c dlqId).exec s (nows.map fun now => .await n now .ok) = some t ∧
        t.calls n = some (.ended outcome) := by
  induction hk : p.remaining using Nat.strongRecOn generalizing s p with
  | _ k ih =>
    by_cases running : p.remaining = 0
    · cases p <;> simp [Call.remaining] at running
      exact ⟨[], s, _, rfl, hn⟩
    · have less := Call.remaining_await c dlqId n 0 s.keys p running
      obtain ⟨nows, t, outcome, run, ended⟩ := ih _ (hk ▸ less)
        (s := ⟨(p.await c dlqId n 0 s.keys .ok).2,
          Function.update s.calls n (some (p.await c dlqId n 0 s.keys .ok).1)⟩)
        (Function.update_self ..) rfl
      refine ⟨0 :: nows, t, outcome, ?_, ended⟩
      simpa [Machine.exec_cons, operators, hn] using run

end Relayna.Dlq
