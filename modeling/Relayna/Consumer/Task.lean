import Relayna.Consumer.Bounded
import Mathlib.Data.List.Dedup

/-!
# `TaskConsumer`

From `_handle_message` down. The two nested `try` statements of `_process_task` are written
with the endings of their bodies: `begun` is how far the start of the task came, `ended` how
the handler's part ended, and the `finally` block reads both. The optional arguments of
`_process_task` that no caller passes have their default values.
-/
namespace Relayna.Consumer

open Python Contracts Await

/-- `a or b` for texts that may be missing: an empty text counts as missing. -/
def orText (a b : Option String) : Option String := (a.bind nonEmpty).or b

structure TaskConsumer extends Settings where
  failureAction : FailureAction
  lifecycleStatuses : LifecycleStatusConfig
  leasing : Option Leasing
  batchPublishConcurrency : Nat
  routedTopology : Bool
  one_le_batchPublishConcurrency : 1 ≤ batchPublishConcurrency

namespace TaskConsumer

variable (c : TaskConsumer) (d : Delivery)

/-- `_make_task_context`. -/
def makeTaskContext (task : TaskEnvelope) (rawPayload : Value) : Except Exc TaskContext := do
  let headers := d.metadata.headers
  let batchIndex ← headerInt headers "batch_index"
  let batchSize ← headerInt headers "batch_size"
  let manualRetryCount ← manualRetryCount headers
  return {
    consumerName := c.consumerName
    rawPayload
    correlationId := orText task.correlationId d.metadata.correlationId
    deliveryTag := d.metadata.deliveryTag
    redelivered := d.metadata.redelivered
    taskId := task.taskId
    retryAttempt := d.metadata.retryAttempt
    maxRetries := c.retryPolicy.map (·.maxRetries)
    sourceQueueName := d.sourceQueueName
    batchId := headerString headers "batch_id"
    batchIndex
    batchSize
    headers
    manualRetryCount
    manualRetryPreviousTaskType := headerString headers "x-relayna-manual-retry-from-task-type"
    manualRetrySourceConsumer := headerString headers "x-relayna-manual-retry-source-consumer"
    manualRetryReason := headerString headers "x-relayna-manual-retry-reason" }

def subject (taskId correlationId taskType : Option String) : Subject :=
  ⟨c.consumerName, d.sourceQueueName, taskId, correlationId, d.metadata.retryAttempt, taskType⟩

/-- `_publish_retry`. -/
def publishRetry (taskId : Option String) (retryAttempt maxRetries : Int) (reason : String)
    (exceptionType : Option String) (extraHeaders : Fields Value) : Proc Unit :=
  c.publishRetryCopy c.retryPolicy d retryAttempt maxRetries reason exceptionType extraHeaders
    fun infrastructure =>
      .consumerRetryScheduled
        ⟨c.consumerName, infrastructure.retryQueueName, taskId, d.metadata.correlationId,
          retryAttempt, c.taskTypeFromBody d.message.body⟩
        ⟨d.sourceQueueName, maxRetries, reason⟩

/-- `_publish_dead_letter`. -/
def publishDeadLetter (taskId : Option String) (retryAttempt : Int) (reason : String)
    (exceptionType exceptionMessage : Option String) (extraHeaders : Fields Value) : Proc Unit :=
  c.publishDeadLetterCopy c.retryPolicy d taskId retryAttempt reason exceptionType
    exceptionMessage extraHeaders fun infrastructure maxRetries =>
      .consumerDeadLetterPublished
        ⟨c.consumerName, infrastructure.deadLetterQueueName, taskId, d.metadata.correlationId,
          retryAttempt, c.taskTypeFromBody d.message.body⟩
        ⟨d.sourceQueueName, maxRetries, reason⟩

/-- `_publish_lifecycle_status`. -/
def publishLifecycleStatus (context : TaskContext) (status message : String) : Proc Unit :=
  if c.lifecycleStatuses.enabled then
    swallow do
      perform (.publishStatus context.taskId context.correlationId status message [])
      c.emitObservation (.taskLifecycleStatusPublished
        (c.subject d context.taskId context.correlationId
          (coerceTaskType c.codec.text context.rawPayload)) status)
  else pure ()

/-- `_publish_dead_letter_status`. -/
def publishDeadLetterStatus (context : TaskContext) (exc : Exc) : Proc Unit :=
  if c.retryStatuses.enabled then
    c.publishDeadLetterStatusOf context.taskId context.correlationId exc []
  else
    c.publishLifecycleStatus d context c.lifecycleStatuses.failedStatus
      (failureMessage exc c.lifecycleStatuses.includeErrorMessage)

def sampling : Bool := c.observationSink || c.metrics

/-- `_emit_task_resource_sample`. -/
def emitTaskResourceSample (task : TaskEnvelope) (context : TaskContext) (kind : SampleKind) :
    Proc Unit :=
  if c.sampling then do
    match ← (perform .sampleResources).attempt with
    | .ok true =>
      c.emitObservation (.taskResourceSampled c.consumerName d.sourceQueueName task.taskId
        context.correlationId task.taskType kind)
      c.record (.observationEvent (d.labels .task task.taskType) kind)
    | _ => pure ()
  else pure ()

/-- `_publish_manual_retry_request`. -/
def publishManualRetryRequest (context : TaskContext) (request : ManualRetryRequest) :
    Proc Unit := do
  swallow (perform (.publishStatus context.taskId context.correlationId "manual_retrying"
    request.statusMessage request.statusMeta))
  perform (.publishTask request)

/-- The body of `_process_task` up to the handler. -/
def beginTask (task : TaskEnvelope) (context : TaskContext) : Proc Unit := do
  c.publishLifecycleStatus d context c.lifecycleStatuses.processingStatus
    "Task processing started."
  c.emitTaskResourceSample d task context .start

/-- The handler, whose request for a manual retry is no failure. -/
def callHandler (context : TaskContext) : Proc (Option ManualRetryRequest) :=
  Proc.tryCatch (perform (.handler context)) fun
    | .manualRetryRequested request => pure (some request)
    | exc => .raise exc

/-- The handler, and what follows its return. -/
def runHandler (context : TaskContext) : Proc Unit := do
  match ← callHandler context with
  | some request => publishManualRetryRequest context request
  | none =>
    c.publishLifecycleStatus d context c.lifecycleStatuses.completedStatus
      "Task processing completed."

/-- The `except Exception` clause of `_process_task`. -/
def onHandlerFailed (task : TaskEnvelope) (context : TaskContext) (exc : Exc) : Proc Bool := do
  let subject := c.subject d task.taskId context.correlationId task.taskType
  c.emitObservation (.taskHandlerFailed subject exc.typeName exc.text
    (c.retryPolicy.isNone && c.failureAction = .requeue))
  let decision := decideRetry
    { retryAttempt := context.retryAttempt
      reason := "handler_error"
      maxRetries := c.retryPolicy.map (·.maxRetries)
      failureAction := c.failureAction }
  match decision.action with
  | .reject | .requeue =>
    c.publishLifecycleStatus d context c.lifecycleStatuses.failedStatus
      (failureMessage exc c.lifecycleStatuses.includeErrorMessage)
    let requeue := decide (c.failureAction = .requeue)
    reject requeue
    c.emitObservation (.taskMessageRejected subject requeue "handler_error")
    return false
  | .retry =>
    match decision.maxRetries with
    | none => .raise (runtimeError "Retry decision is missing max_retries")
    | some maxRetries =>
      c.record (.taskRetry (d.labels .task task.taskType))
      c.publishRetry d task.taskId decision.retryAttempt maxRetries decision.reason
        (some exc.typeName) (mergeBatchRetryHeaders context)
      c.publishRetryStatusOf context.taskId context.correlationId decision.retryAttempt
        maxRetries []
      ack
      return false
  | .deadLetter =>
    c.record (.taskDlq (d.labels .task task.taskType))
    c.publishDeadLetter d task.taskId decision.retryAttempt decision.reason (some exc.typeName)
      (some exc.text) (mergeBatchRetryHeaders context)
    c.publishDeadLetterStatus d context exc
    ack
    return false

/-- The `finally` block of `_process_task`. -/
def finishTask (task : TaskEnvelope) (context : TaskContext) (begun ended : Except Exc Unit) :
    Proc Unit :=
  match begun with
  | .ok _ => do
    c.emitTaskResourceSample d task context .finish
    c.recordOutcome (d.labels .task task.taskType) ended
  | .error _ => c.recordOutcome (d.labels .task task.taskType) ended

/-- `_process_task`. -/
def processTask (task : TaskEnvelope) (context : TaskContext) : Proc Bool := do
  c.recordTaskStarted (d.labels .task (coerceTaskType c.codec.text context.rawPayload))
    context.retryAttempt
  let begun ← (c.beginTask d task context).attempt
  let ended ← (do Proc.ofExcept begun; c.runHandler d context : Proc Unit).attempt
  (onException ended (pure true) (c.onHandlerFailed d task context)).tryFinally fun _ =>
    c.finishTask d task context begun ended

/-- `_process_task_with_lease`. -/
def processTaskWithLease (task : TaskEnvelope) (context : TaskContext) : Proc Bool :=
  match c.leasing with
  | none => c.processTask d task context
  | some leasing => do
    let granted : Bool ← perform (.acquireLease
      { leaseId := task.taskId
        taskId := task.taskId
        taskType := task.taskType
        ownerId := leasing.ownerId
        consumerName := c.consumerName
        attempt := context.retryAttempt })
    if granted then
      (c.processTask d task context).tryFinally fun _ => do
        joinHeartbeat
        perform (.releaseLease task.taskId leasing.ownerId)
    else
      c.emitObservation (.taskMessageRejected
        (c.subject d task.taskId context.correlationId task.taskType) true "lease_conflict")
      reject true
      return false

/-- A message that cannot be handled is rejected where there is no retry policy and
dead-lettered where there is one. -/
def refuse (taskId taskType : Option String) (reason : String) (exceptionType : Option String) :
    Proc Unit :=
  match c.retryPolicy with
  | none => do
    reject false
    c.emitObservation (.taskMessageRejected
      (c.subject d taskId d.metadata.correlationId taskType) false reason)
  | some _ => do
    c.publishDeadLetter d taskId d.metadata.retryAttempt reason exceptionType none []
    ack

/-- `publish_task` of `_handle_batch_message` up to its await. -/
def batchItem (batch : BatchTaskEnvelope) (item : TaskEnvelope × Nat) : Except Exc Op := do
  let (task, index) := item
  let payload ← (c.codec.dumpTask task).mapError fun e => .error e.1 e.2
  let body ← (c.codec.toJson payload).mapError fun e => .error e.1 e.2
  return .publishRaw d.sourceQueueName
    { body
      correlationId := orText task.correlationId (some task.taskId)
      headers := fun key => List.lookup key
        [("task_id", .str task.taskId), ("batch_id", .str batch.batchId),
          ("batch_index", .int index), ("batch_size", .int batch.tasks.length)]
      contentType := d.metadata.contentType }

/-- `str(task.task_type).strip()`, where the text of `None` is `None`. -/
def typeName (task : TaskEnvelope) : String := strip (task.taskType.getD "None")

/-- A routed topology does not take a batch of several task types. -/
def mixedTaskTypes (batch : BatchTaskEnvelope) : Bool :=
  c.routedTopology && decide (1 < ((batch.tasks.map typeName).filter (· != "")).dedup.length)

/-- `_handle_batch_message`. -/
def handleBatchMessage (payload : Fields Value) : Proc Unit :=
  match c.codec.validateBatch d.message.fresh
      (.dict (normalizeBatchPayload c.codec.text payload c.aliasConfig)) with
  | none => do
    c.publishDeadLetter d none d.metadata.retryAttempt "invalid_envelope" (some "ValidationError")
      none []
    ack
  | some batch =>
    if c.mixedTaskTypes batch then do
      c.publishDeadLetter d none d.metadata.retryAttempt "mixed_task_type_batch"
        (some "ValueError") none []
      ack
    else do
      mapBounded (c.batchItem d batch) batch.tasks.zipIdx c.batchPublishConcurrency
      ack
      c.emitObservation (.taskMessageAcked (c.subject d none none none))

/-- The payload of a batch envelope. -/
def asBatch : Value → Option (Fields Value)
  | .dict fields => if isBatchTaskPayload fields then some fields else none
  | _ => none

/-- A message that is not a batch. -/
def handleSingleMessage (payload : Value) : Proc Unit :=
  match c.codec.validateTask d.message.fresh payload with
  | none =>
    c.refuse d (coerceTaskId payload) (coerceTaskType c.codec.text payload) "invalid_envelope"
      (some "ValidationError")
  | some task => do
    let context ← Proc.ofExcept (c.makeTaskContext d task payload)
    let success ← c.processTaskWithLease d task context
    if success then
      ack
      c.emitObservation (.taskMessageAcked
        (c.subject d task.taskId context.correlationId task.taskType))

/-- `_handle_message_impl`. -/
def handleMessageImpl : Proc Unit :=
  match c.codec.parseTransportJson d.message.body with
  | .error _ => c.refuse d none none "malformed_json" none
  | .ok payload => do
    let payload := c.normalize payload
    c.emitObservation (.taskMessageReceived
      (c.subject d (coerceTaskId payload) d.metadata.correlationId
        (coerceTaskType c.codec.text payload))
      d.metadata.deliveryTag d.metadata.redelivered)
    match asBatch payload with
    | some fields =>
      if c.retryPolicy.isNone then
        reject false
        c.emitObservation (.taskMessageRejected
          (c.subject d none d.metadata.correlationId none) false "unsupported_batch_envelope")
      else c.handleBatchMessage d fields
    | none => c.handleSingleMessage d payload

/-- `_handle_message`. The span around it does not raise. -/
def handleMessage (message : Message) (sourceQueueName : String)
    (retryInfrastructure : Option RetryInfrastructure) : Proc Unit := do
  let metadata ← Proc.ofExcept (extractMessageMetadata message)
  c.handleMessageImpl ⟨message, metadata, sourceQueueName, retryInfrastructure⟩

end TaskConsumer

end Relayna.Consumer
