import Relayna.Consumer.Effects
import Mathlib.Data.List.Dedup

/-!
# Publishing tasks

`publish_tasks` prepares every task once and then publishes each as a message of its own or all
of them in one batch envelope. What it hands to the exchange is modelled, not the exchange: the
messages in the order of the tasks, or the exception that the call raises. The trace headers are
left out.
-/
namespace Relayna.Rabbitmq

open Consumer Contracts Python

/-- `dumpBatch` builds a `BatchTaskEnvelope` and dumps it; it raises for a list of no tasks. -/
structure TaskPublisher where
  codec : Codec
  aliasConfig : Option ContractAliasConfig
  taskMaxPriority : Option Int
  dumpBatch : Fresh → String → List TaskEnvelope → Fields Value → Except (String × String) Value

/-- `task_dict.get("priority")`. -/
def priorityOf (taskDict : Value) : Option Int :=
  match taskDict.get "priority" with
  | some (.int n) => some n
  | _ => none

/-- `str(task_dict.get("correlation_id") or task_dict.get("task_id", "")) or None`. -/
def correlationIdOf (text : Text) (taskDict : Value) : Option String :=
  match (taskDict.get "correlation_id").filter Value.truthy with
  | some v => nonEmpty (text.str v)
  | none => nonEmpty (((taskDict.get "task_id").map text.str).getD "")

def valueError (text : String) : Exc := .error "ValueError" text

namespace TaskPublisher

variable (p : TaskPublisher)

/-- `_prepare_task_envelope`. -/
def prepareTaskEnvelope (fresh : Fresh) (task : Fields Value) : Except Exc TaskEnvelope :=
  match p.codec.validateTask fresh
      (.dict (normalizeContractAliases p.codec.text task p.aliasConfig)) with
  | none => .error (.error "ValidationError" "")
  | some envelope => .ok envelope

/-- `_validate_priority_against_limit(priority, max_priority=..., kind="task")`. -/
def validateTaskPriority (priority : Option Int) : Except Exc Unit :=
  match priority, p.taskMaxPriority with
  | some priority, some maxPriority =>
    if priority > maxPriority then
      .error (valueError
        s!"task priority {priority} exceeds configured task_max_priority {maxPriority}")
    else .ok ()
  | _, _ => .ok ()

def dump (envelope : TaskEnvelope) : Except Exc Value :=
  (p.codec.dumpTask envelope).mapError fun e => .error e.1 e.2

def toJsonBytes (payload : Value) : Except Exc Bytes :=
  (p.codec.toJson payload).mapError fun e => .error e.1 e.2

/-- `_publish_prepared_task`. -/
def publishPreparedTask (taskDict : Value) : Except Exc Outgoing := do
  p.validateTaskPriority (priorityOf taskDict)
  let body ← p.toJsonBytes taskDict
  return {
    body
    correlationId := correlationIdOf p.codec.text taskDict
    headers := fun key => List.lookup key
      [("task_id", .str (((taskDict.get "task_id").map p.codec.text.str).getD ""))]
    priority := priorityOf taskDict
    contentType := some "application/json" }

/-- The tasks as both modes prepare them. -/
def prepareTasks (fresh : Nat → Fresh) (tasks : List (Fields Value)) :
    Except Exc (List TaskEnvelope) :=
  tasks.zipIdx.mapM fun (task, i) => p.prepareTaskEnvelope (fresh i) task

/-- `publish_tasks(tasks, mode="individual")`. -/
def publishIndividually (fresh : Nat → Fresh) (tasks : List (Fields Value)) :
    Except Exc (List Outgoing) := do
  let envelopes ← p.prepareTasks fresh tasks
  let taskDicts ← envelopes.mapM p.dump
  taskDicts.mapM p.publishPreparedTask

/-- `_resolve_batch_priority`. -/
def resolveBatchPriority (taskDicts : List Value) : Except Exc (Option Int) := do
  let priorities := (taskDicts.map priorityOf).dedup
  if priorities.length > 1 then
    .error (valueError
      "batch_envelope tasks must all share the same priority when priority is provided")
  else
    let priority := priorities.head?.getD none
    p.validateTaskPriority priority
    return priority

/-- `publish_tasks(tasks, mode="batch_envelope", batch_id=batch_id, meta=meta)`. -/
def publishBatch (fresh : Nat → Fresh) (tasks : List (Fields Value)) (batchId : Option String)
    (batchMeta : Fields Value) : Except Exc Outgoing := do
  let envelopes ← p.prepareTasks fresh tasks
  let taskDicts ← envelopes.mapM p.dump
  let batchId := batchId.getD ""
  if strip batchId = "" then
    .error (valueError "batch_id is required when mode='batch_envelope'.")
  else
    let payload ← (p.dumpBatch (fresh tasks.length) batchId envelopes batchMeta).mapError
      fun e => .error e.1 e.2
    let priority ← p.resolveBatchPriority taskDicts
    let body ← p.toJsonBytes payload
    return {
      body
      correlationId := nonEmpty batchId
      headers := fun key => List.lookup key
        [("batch_id", .str batchId), ("batch_size", .int envelopes.length)]
      priority
      contentType := some "application/json" }

end TaskPublisher

end Relayna.Rabbitmq
