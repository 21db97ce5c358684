import Relayna.Consumer.Aggregation

/-!
# `WorkflowConsumer`

One stage of a workflow topology. `_handle_message` does not ack: it returns whether the
message is to be acked, and `handle_message` in `run_forever` does so. The clause for a
`TimeoutError` differs from that for other exceptions in the reason only.

`AnyConsumer` is one of the three consumers; `AnyConsumer.handle` is what its loop runs for each
delivered message.
-/
namespace Relayna.Consumer

open Python Contracts Await

structure WorkflowStage where
  name : String
  acceptedActions : List ActionSchema
  timeoutSeconds : Option Python.Float
  maxRetries : Option Int
  retryDelayMs : Option Int
  dedupKeyFields : List String

structure WorkflowConsumer extends Settings where
  stage : WorkflowStage
  contractStore : Bool
  leasing : Option Leasing

namespace WorkflowConsumer

variable (c : WorkflowConsumer) (d : Delivery)

/-- `_effective_retry_policy`. -/
def effectiveRetryPolicy : Option RetryPolicy :=
  if c.retryPolicy.isNone && c.stage.maxRetries.isNone && c.stage.retryDelayMs.isNone then none
  else
    let base := c.retryPolicy.getD {}
    some { base with
      maxRetries := c.stage.maxRetries.getD base.maxRetries
      delayMs := c.stage.retryDelayMs.getD base.delayMs }

def labels : MetricLabels := d.labels .workflow (some c.stage.name)

def subject (message : WorkflowEnvelope) : WorkflowSubject :=
  ⟨c.consumerName, d.sourceQueueName, c.stage.name, message.taskId, message.messageId,
    message.originStage, orText message.correlationId d.metadata.correlationId⟩

/-- `_publish_retry`. -/
def publishRetry (taskId : Option String) (retryAttempt maxRetries : Int) (reason : String)
    (exceptionType : Option String) : Proc Unit :=
  c.publishRetryCopy c.effectiveRetryPolicy d retryAttempt maxRetries reason exceptionType []
    fun infrastructure =>
      .consumerRetryScheduled
        ⟨c.consumerName, infrastructure.retryQueueName, taskId, d.metadata.correlationId,
          retryAttempt, none⟩
        ⟨d.sourceQueueName, maxRetries, reason⟩

/-- `_publish_dead_letter`. -/
def publishDeadLetter (taskId : Option String) (retryAttempt : Int) (reason : String)
    (exceptionType : Option String) : Proc Unit :=
  c.publishDeadLetterCopy c.effectiveRetryPolicy d taskId retryAttempt reason exceptionType none
    [] fun infrastructure maxRetries =>
      .consumerDeadLetterPublished
        ⟨c.consumerName, infrastructure.deadLetterQueueName, taskId, d.metadata.correlationId,
          retryAttempt, none⟩
        ⟨d.sourceQueueName, maxRetries, reason⟩

/-- As `TaskConsumer.refuse`, with the ack left to the caller. -/
def refuse (taskId : Option String) (reason : String) (exceptionType : Option String) :
    Proc Bool :=
  match c.effectiveRetryPolicy with
  | none => do
    reject false
    return false
  | some _ => do
    c.publishDeadLetter d taskId d.metadata.retryAttempt reason exceptionType
    return true

def makeContext (message : WorkflowEnvelope) (rawPayload : Value) : WorkflowContext where
  consumerName := c.consumerName
  stage := c.stage.name
  rawPayload := rawPayload
  correlationId := orText message.correlationId d.metadata.correlationId
  deliveryTag := d.metadata.deliveryTag
  redelivered := d.metadata.redelivered
  taskId := message.taskId
  messageId := message.messageId
  originStage := message.originStage
  retryAttempt := d.metadata.retryAttempt
  maxRetries := c.effectiveRetryPolicy.map (·.maxRetries)
  sourceQueueName := d.sourceQueueName
  headers := d.metadata.headers

/-- The clauses for `TimeoutError` and for `Exception`. -/
def onHandlerFailed (message : WorkflowEnvelope) (context : WorkflowContext) (exc : Exc) :
    Proc Bool := do
  c.emitObservation (.workflowStageFailed (c.subject d message) exc.typeName exc.text false)
  let decision := decideRetry
    { retryAttempt := context.retryAttempt
      reason := match exc with
        | .timeoutError _ => "stage_timeout"
        | _ => "handler_error"
      maxRetries := c.effectiveRetryPolicy.map (·.maxRetries) }
  match decision.action with
  | .reject =>
    reject false
    return false
  | .retry =>
    match decision.maxRetries with
    | none => .raise (runtimeError "Retry decision is missing max_retries")
    | some maxRetries =>
      c.record (.taskRetry (c.labels d))
      c.publishRetry d message.taskId decision.retryAttempt maxRetries decision.reason
        (some exc.typeName)
      c.publishRetryStatusOf context.taskId context.correlationId decision.retryAttempt
        maxRetries []
      return true
  | .requeue => .raise (runtimeError "Unsupported retry decision action: requeue")
  | .deadLetter =>
    if c.effectiveRetryPolicy.isNone then
      .raise (runtimeError "Dead-letter retry decision is missing retry policy")
    else
      c.record (.taskDlq (c.labels d))
      c.publishDeadLetter d message.taskId decision.retryAttempt decision.reason
        (some exc.typeName)
      c.publishDeadLetterStatusOf context.taskId context.correlationId exc []
      return true

def dedupScope (message : WorkflowEnvelope) : DedupScope :=
  ⟨c.stage.name, message.taskId, message.action, message.payload, c.stage.dedupKeyFields⟩

/-- `_cleanup_dedup_state`, where the dedup marker has been acquired. -/
def cleanupDedupState (acquired : Bool) (message : WorkflowEnvelope) : Proc Unit :=
  if acquired then do
    swallow (perform (.clearInflight (c.dedupScope message)))
    swallow (perform (.releaseDedup (c.dedupScope message)))
  else pure ()

def leaseId (message : WorkflowEnvelope) : String :=
  (nonEmpty message.messageId).getD (message.taskId ++ ":" ++ c.stage.name)

/-- `lease_store.acquire`, where leases are enabled. -/
def acquireStageLease (message : WorkflowEnvelope) (context : WorkflowContext) : Proc Bool :=
  match c.leasing with
  | none => pure true
  | some leasing => perform (.acquireLease
    { leaseId := c.leaseId message
      taskId := message.taskId
      messageId := message.messageId
      taskType := message.action
      stage := c.stage.name
      ownerId := leasing.ownerId
      consumerName := c.consumerName
      attempt := context.retryAttempt })

/-- The heartbeat is joined and the lease released, where there is one. -/
def releaseStageLease (message : WorkflowEnvelope) : Proc Unit :=
  match c.leasing with
  | none => pure ()
  | some leasing => do
    joinHeartbeat
    perform (.releaseLease (c.leaseId message) leasing.ownerId)

/-- The handler and its `try` statement; `none` where the stage has completed. -/
def runStage (message : WorkflowEnvelope) (context : WorkflowContext) (dedupAcquired : Bool) :
    Proc (Option Bool) := do
  let ended ← (perform (.workflowHandler context c.stage.timeoutSeconds)).attempt
  (onException ended (pure none) fun exc => do
    let acked ← c.onHandlerFailed d message context exc
    return some acked).tryFinally fun _ => do
      c.cleanupDedupState dedupAcquired message
      c.recordOutcome (c.labels d) ended
      c.releaseStageLease message

/-- From the start metric to the end of `_handle_message_impl`. -/
def processStage (message : WorkflowEnvelope) (context : WorkflowContext)
    (dedupAcquired : Bool) : Proc Bool := do
  c.recordTaskStarted (c.labels d) context.retryAttempt
  let granted ← c.acquireStageLease message context
  if granted then
    match ← c.runStage d message context dedupAcquired with
    | some acked => return acked
    | none =>
      c.emitObservation (.workflowStageAcked (c.subject d message))
      return true
  else
    c.emitObservation (.workflowStageFailed (c.subject d message) "LeaseConflict"
      "Workflow message lease is already owned." true)
    reject true
    c.cleanupDedupState dedupAcquired message
    c.record (.taskFinished (c.labels d) .failed)
    return false

/-- A stage with dedup fields takes the marker of the message before it goes on. -/
def processDeduplicated (message : WorkflowEnvelope) (context : WorkflowContext) : Proc Bool :=
  if c.stage.dedupKeyFields = [] then c.processStage d message context false
  else if !c.contractStore then
    .raise (runtimeError
      ("Workflow stage '" ++ c.stage.name ++ "' requires contract_store for dedup enforcement"))
  else do
    let acquired : Bool ← perform (.acquireDedup (c.dedupScope message))
    if acquired then
      Proc.tryCatch (perform (.markInflight (c.dedupScope message))) fun
        | .cancelled => .raise .cancelled
        | exc => do
          perform (.releaseDedup (c.dedupScope message))
          .raise exc
      c.processStage d message context true
    else c.refuse d message.taskId "dedup_conflict" (some "WorkflowContractError")

/-- `_handle_message_impl`. -/
def handleMessageImpl : Proc Bool :=
  match c.codec.parseTransportJson d.message.body with
  | .error _ => c.refuse d none "malformed_json" none
  | .ok payload =>
    let payload := c.normalize payload
    match c.codec.validateWorkflow d.message.fresh payload with
    | none => c.refuse d (coerceTaskId payload) "invalid_envelope" (some "ValidationError")
    | some message =>
      match validateActionContract c.stage.acceptedActions message.action message.payload with
      | some reason => c.refuse d message.taskId reason (some "WorkflowContractError")
      | none => do
        c.emitObservation (.workflowMessageReceived (c.subject d message)
          d.metadata.deliveryTag d.metadata.redelivered)
        let rawPayload ←
          Proc.ofExcept ((c.codec.dumpWorkflow message).mapError fun e => .error e.1 e.2)
        c.processDeduplicated d message (c.makeContext d message rawPayload)

/-- `_handle_message`. The span around it does not raise. -/
def handleMessage (message : Message) (sourceQueueName : String)
    (retryInfrastructure : Option RetryInfrastructure) : Proc Bool := do
  let metadata ← Proc.ofExcept (extractMessageMetadata message)
  c.handleMessageImpl ⟨message, metadata, sourceQueueName, retryInfrastructure⟩

end WorkflowConsumer

inductive AnyConsumer where
  | task (c : TaskConsumer)
  | aggregation (c : AggregationConsumer)
  | workflow (c : WorkflowConsumer)

namespace AnyConsumer

/-- What the consumer's loop runs for a delivered message. -/
def handle (c : AnyConsumer) (message : Message) (sourceQueueName : String)
    (retryInfrastructure : Option RetryInfrastructure) : Proc Unit :=
  match c with
  | .task c => c.handleMessage message sourceQueueName retryInfrastructure
  | .aggregation c => c.handleMessage message sourceQueueName retryInfrastructure
  | .workflow c => do
    let acked ← c.handleMessage message sourceQueueName retryInfrastructure
    if acked then ack

/-- The retry policy in force. -/
def retryPolicy : AnyConsumer → Option RetryPolicy
  | .task c => c.retryPolicy
  | .aggregation c => c.retryPolicy
  | .workflow c => c.effectiveRetryPolicy

end AnyConsumer

end Relayna.Consumer
