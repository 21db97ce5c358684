import Relayna.Consumer.Task

/-!
# `AggregationConsumer`

It has no lease and no lifecycle statuses, and it decides about retries itself instead of
asking the policy engine.
-/
namespace Relayna.Consumer

open Python Contracts Await

structure AggregationConsumer extends Settings

namespace AggregationConsumer

variable (c : AggregationConsumer) (d : Delivery)

def subject (event : StatusEventEnvelope) : Subject :=
  ⟨c.consumerName, d.sourceQueueName, event.taskId,
    orText event.correlationId d.metadata.correlationId, d.metadata.retryAttempt, none⟩

def labels : MetricLabels := d.labels .aggregation (some "aggregation")

/-- `_publish_retry`. -/
def publishRetry (taskId parentTaskId : Option String) (retryAttempt maxRetries : Int)
    (reason : String) (exceptionType : Option String) : Proc Unit :=
  c.publishRetryCopy c.retryPolicy d retryAttempt maxRetries reason exceptionType []
    fun infrastructure =>
      .aggregationRetryScheduled
        ⟨c.consumerName, infrastructure.retryQueueName, taskId, d.metadata.correlationId,
          retryAttempt, none⟩
        parentTaskId ⟨d.sourceQueueName, maxRetries, reason⟩

/-- `_publish_dead_letter`. -/
def publishDeadLetter (taskId parentTaskId : Option String) (retryAttempt : Int)
    (reason : String) (exceptionType exceptionMessage : Option String) : Proc Unit :=
  c.publishDeadLetterCopy c.retryPolicy d taskId retryAttempt reason exceptionType
    exceptionMessage [] fun infrastructure maxRetries =>
      .aggregationDeadLetterPublished
        ⟨c.consumerName, infrastructure.deadLetterQueueName, taskId, d.metadata.correlationId,
          retryAttempt, none⟩
        parentTaskId ⟨d.sourceQueueName, maxRetries, reason⟩

/-- As `TaskConsumer.refuse`, without an observation. -/
def refuse (taskId : Option String) (reason : String) (exceptionType : Option String) :
    Proc Unit :=
  match c.retryPolicy with
  | none => reject false
  | some _ => do
    c.publishDeadLetter d taskId none d.metadata.retryAttempt reason exceptionType none
    ack

def makeContext (event : StatusEventEnvelope) (rawPayload : Value)
    (manualRetry : ManualRetryMeta) : Except Exc TaskContext := do
  let headers := d.metadata.headers
  let count ← manualRetryCount headers
  return {
    consumerName := c.consumerName
    rawPayload
    correlationId := orText event.correlationId d.metadata.correlationId
    deliveryTag := d.metadata.deliveryTag
    redelivered := d.metadata.redelivered
    taskId := event.taskId
    retryAttempt := d.metadata.retryAttempt
    maxRetries := c.retryPolicy.map (·.maxRetries)
    sourceQueueName := d.sourceQueueName
    headers
    isTaskContext := false
    manualRetryCount := if count = 0 then manualRetry.count else count
    manualRetryPreviousTaskType :=
      (headerString headers "x-relayna-manual-retry-from-task-type").or
        manualRetry.previousTaskType
    manualRetrySourceConsumer :=
      (headerString headers "x-relayna-manual-retry-source-consumer").or
        manualRetry.sourceConsumer
    manualRetryReason :=
      (headerString headers "x-relayna-manual-retry-reason").or manualRetry.reason }

/-- The `except Exception` clause of `_handle_message`. -/
def onHandlerFailed (event : StatusEventEnvelope) (context : TaskContext) (exc : Exc) :
    Proc Bool := do
  let parentTaskId := parentTaskIdFromMeta c.codec.text event.statusMeta
  c.emitObservation (.aggregationHandlerFailed (c.subject d event) parentTaskId exc.typeName
    exc.text)
  match c.retryPolicy with
  | none =>
    reject false
    return false
  | some policy =>
    let retryAttempt := d.metadata.retryAttempt
    if retryAttempt < policy.maxRetries then
      c.record (.taskRetry (labels d))
      c.publishRetry d event.taskId parentTaskId (retryAttempt + 1) policy.maxRetries
        "handler_error" (some exc.typeName)
      c.publishRetryStatusOf context.taskId context.correlationId (retryAttempt + 1)
        policy.maxRetries event.statusMeta
      ack
      return false
    else
      c.record (.taskDlq (labels d))
      c.publishDeadLetter d event.taskId parentTaskId retryAttempt "handler_error"
        (some exc.typeName) (some exc.text)
      c.publishDeadLetterStatusOf context.taskId context.correlationId exc event.statusMeta
      ack
      return false

/-- The handler and its `try` statement; whether the message is still to be acked. -/
def processEvent (event : StatusEventEnvelope) (context : TaskContext) : Proc Bool := do
  let ended ← (perform (.handler context)).attempt
  (onException ended (pure true) (c.onHandlerFailed d event context)).tryFinally fun _ =>
    c.recordOutcome (labels d) ended

/-- `_handle_message` for a message that is a status event. -/
def handleEvent (event : StatusEventEnvelope) (payload : Value) : Proc Unit := do
  c.recordTaskStarted (labels d) d.metadata.retryAttempt
  let manualRetry ← Proc.ofExcept (manualRetryMetaFromStatus c.codec.text event.statusMeta)
  let parentTaskId := parentTaskIdFromMeta c.codec.text event.statusMeta
  c.emitObservation (.aggregationMessageReceived (c.subject d event) parentTaskId
    d.metadata.deliveryTag d.metadata.redelivered)
  let context ← Proc.ofExcept (c.makeContext d event payload manualRetry)
  let completed ← c.processEvent d event context
  if completed then
    ack
    c.emitObservation (.aggregationMessageAcked (c.subject d event) parentTaskId)

/-- `_handle_message` after the metadata. -/
def handleMessageImpl : Proc Unit :=
  match c.codec.parseTransportJson d.message.body with
  | .error _ => c.refuse d none "malformed_json" none
  | .ok payload =>
    let payload := c.normalize payload
    match c.codec.validateStatus d.message.fresh payload with
    | none => c.refuse d (coerceTaskId payload) "invalid_envelope" (some "ValidationError")
    | some event => c.handleEvent d event payload

/-- `_handle_message`. -/
def handleMessage (message : Message) (sourceQueueName : String)
    (retryInfrastructure : Option RetryInfrastructure) : Proc Unit := do
  let metadata ← Proc.ofExcept (extractMessageMetadata message)
  c.handleMessageImpl ⟨message, metadata, sourceQueueName, retryInfrastructure⟩

end AggregationConsumer

end Relayna.Consumer
