import Relayna.Consumer.Context
import Relayna.Foundation.Await

/-!
# What a consumer awaits

The operations that a consumer awaits while it handles one message, and the helpers the three
consumers share. Each operation may raise, and every statement about a consumer is about every
answer of every operation. Metrics and resource samples are calls that do not raise; they are
recorded with the awaited operations, and their answer is ignored.

`context.publish_status` and `dlq_store.add` are awaited as wholes: what they compute before
they reach the broker or Redis is part of the operation, and the callers catch what it raises.
-/
namespace Relayna.Consumer

open Python Contracts Await

/-- What all observations about one task message have in common. -/
structure Subject where
  consumerName : String
  queueName : String
  taskId : Option String
  correlationId : Option String
  retryAttempt : Int
  taskType : Option String := none

structure WorkflowSubject where
  consumerName : String
  queueName : String
  stage : String
  taskId : String
  messageId : String
  originStage : Option String
  correlationId : Option String

/-- Where a copy of a message was sent, and why. -/
structure Rerouting where
  sourceQueueName : String
  maxRetries : Int
  reason : String

inductive SampleKind where
  | start
  | finish
  deriving DecidableEq, Repr

inductive Observation where
  | taskMessageReceived (subject : Subject) (deliveryTag : Option Int) (redelivered : Bool)
  | taskMessageRejected (subject : Subject) (requeue : Bool) (reason : String)
  | taskMessageAcked (subject : Subject)
  | taskHandlerFailed (subject : Subject) (exceptionType exceptionMessage : String)
      (requeue : Bool)
  | taskResourceSampled (consumerName queueName taskId : String)
      (correlationId taskType : Option String) (sampleKind : SampleKind)
  | taskLifecycleStatusPublished (subject : Subject) (status : String)
  | consumerRetryScheduled (subject : Subject) (rerouting : Rerouting)
  | consumerDeadLetterPublished (subject : Subject) (rerouting : Rerouting)
  | consumerDLQRecordPersistFailed (consumerName queueName : String) (taskId : Option String)
      (retryAttempt : Int) (rerouting : Rerouting) (exceptionType exceptionMessage : String)
  | aggregationMessageReceived (subject : Subject) (parentTaskId : Option String)
      (deliveryTag : Option Int) (redelivered : Bool)
  | aggregationHandlerFailed (subject : Subject) (parentTaskId : Option String)
      (exceptionType exceptionMessage : String)
  | aggregationMessageAcked (subject : Subject) (parentTaskId : Option String)
  | aggregationRetryScheduled (subject : Subject) (parentTaskId : Option String)
      (rerouting : Rerouting)
  | aggregationDeadLetterPublished (subject : Subject) (parentTaskId : Option String)
      (rerouting : Rerouting)
  | workflowMessageReceived (subject : WorkflowSubject) (deliveryTag : Option Int)
      (redelivered : Bool)
  | workflowStageFailed (subject : WorkflowSubject) (exceptionType exceptionMessage : String)
      (requeue : Bool)
  | workflowStageAcked (subject : WorkflowSubject)

inductive WorkerType where
  | task
  | aggregation
  | workflow
  deriving DecidableEq, Repr

structure MetricLabels where
  stage : Option String
  queue : String
  workerType : WorkerType

inductive Outcome where
  | completed
  | failed
  deriving DecidableEq, Repr

inductive Metric where
  | taskStarted (labels : MetricLabels) (retryAttempt : Int)
  | taskFinished (labels : MetricLabels) (outcome : Outcome)
  | taskRetry (labels : MetricLabels)
  | taskDlq (labels : MetricLabels)
  | observationEvent (labels : MetricLabels) (sampleKind : SampleKind)

/-- The arguments of `publish_raw_to_queue` after the queue. -/
structure Outgoing where
  body : Bytes
  correlationId : Option String
  headers : Dict
  priority : Option Int := none
  contentType : Option String

/-- The arguments of `build_dlq_record`. -/
structure DeadLetter where
  queueName : String
  sourceQueueName : String
  retryQueueName : String
  taskId : Option String
  correlationId : Option String
  reason : String
  exceptionType : Option String
  exceptionMessage : Option String
  retryAttempt : Int
  maxRetries : Int
  headers : Dict
  contentType : Option String
  body : Bytes
  consumerName : String

structure LeaseRequest where
  leaseId : String
  taskId : String
  messageId : Option String := none
  taskType : Option String
  stage : Option String := none
  ownerId : String
  consumerName : String
  attempt : Int

/-- The arguments by which a `WorkflowContractStore` finds its key. -/
structure DedupScope where
  stage : String
  taskId : String
  action : Option String
  payload : Fields Value
  dedupKeyFields : List String

inductive Op where
  | handler (context : TaskContext)
  | workflowHandler (context : WorkflowContext) (timeoutSeconds : Option Python.Float)
  | publishRaw (queueName : String) (message : Outgoing)
  | publishTask (request : ManualRetryRequest)
  | publishStatus (taskId : String) (correlationId : Option String) (status message : String)
      (statusMeta : Fields Value)
  | observe (observation : Observation)
  | acquireLease (lease : LeaseRequest)
  | joinHeartbeat
  | releaseLease (leaseId ownerId : String)
  | acquireDedup (scope : DedupScope)
  | markInflight (scope : DedupScope)
  | clearInflight (scope : DedupScope)
  | releaseDedup (scope : DedupScope)
  | addDlqRecord (record : DeadLetter)
  | ack
  | reject (requeue : Bool)
  | metric (metric : Metric)
  | sampleResources
  | completion (others : Nat)

/-- A task handler leaves the manual retry it has asked for on the context. The lease and the
dedup marker are granted or not. A completion says which of the pending workers goes on, and
whether the others have been told to stop if one has failed. -/
def Op.Reply : Op → Type
  | .handler _ => Option ManualRetryRequest
  | .acquireLease _ | .acquireDedup _ | .sampleResources => Bool
  | .completion others => Fin (others + 1) × Bool
  | _ => Unit

abbrev consumerInterface : Interface := ⟨Op, Op.Reply, Exc⟩

abbrev Proc (α : Type) := Await.Proc consumerInterface α

abbrev Event := Await.Event consumerInterface

def perform (op : Op) : Proc op.Reply := Proc.perform (I := consumerInterface) op

def publishRaw (queueName : String) (message : Outgoing) : Proc Unit :=
  perform (.publishRaw queueName message)

def ack : Proc Unit := perform .ack

def reject (requeue : Bool) : Proc Unit := perform (.reject requeue)

/-- `except asyncio.CancelledError: raise` and `except Exception: pass`. -/
def swallow (x : Proc Unit) : Proc Unit :=
  x.tryCatch fun
    | .cancelled => .raise .cancelled
    | _ => pure ()

/-- `except asyncio.CancelledError: raise` and `except Exception as exc` after a body that has
ended so. -/
def onException {α β : Type} (ended : Except Exc α) (completed : Proc β) (failed : Exc → Proc β) :
    Proc β :=
  match ended with
  | .ok _ => completed
  | .error .cancelled => .raise .cancelled
  | .error exc => failed exc

/-- A call that does not raise. -/
def note (op : Op) : Proc Unit := do
  let _ ← (perform op).attempt
  pure ()

/-- The arguments that the three consumers have in common. A sink, a store or metrics that is
`None` is `false`. -/
structure Settings where
  codec : Codec
  consumerName : String
  retryPolicy : Option RetryPolicy
  retryStatuses : RetryStatusConfig
  aliasConfig : Option ContractAliasConfig
  observationSink : Bool
  dlqStore : Bool
  metrics : Bool

/-- The message at hand and where it came from. -/
structure Delivery where
  message : Message
  metadata : MessageMetadata
  sourceQueueName : String
  retryInfrastructure : Option RetryInfrastructure

def Delivery.labels (d : Delivery) (workerType : WorkerType) (stage : Option String) :
    MetricLabels :=
  ⟨stage, d.sourceQueueName, workerType⟩

namespace Settings

variable (s : Settings)

def normalize (payload : Value) : Value := normalizePayload s.codec.text payload s.aliasConfig

/-- `emit_observation`. -/
def emitObservation (observation : Observation) : Proc Unit :=
  if s.observationSink then swallow (perform (.observe observation)) else pure ()

def record (metric : Metric) : Proc Unit :=
  if s.metrics then note (.metric metric) else pure ()

/-- `record_task_started`, which sets a gauge to `float(max(0, retry_attempt))`. -/
def recordTaskStarted (labels : MetricLabels) (retryAttempt : Int) : Proc Unit :=
  if s.metrics then
    if fitsFloat (max 0 retryAttempt) then note (.metric (.taskStarted labels retryAttempt))
    else .raise (overflowError "int too large to convert to float")
  else pure ()

/-- `record_task_finished` in a `finally` block, by how the handler's part has ended. No
outcome has been set when it was cancelled. -/
def recordOutcome {α : Type} (labels : MetricLabels) (ended : Except Exc α) : Proc Unit :=
  match ended with
  | .ok _ => s.record (.taskFinished labels .completed)
  | .error .cancelled => pure ()
  | .error _ => s.record (.taskFinished labels .failed)

/-- `_task_type_from_body`. -/
def taskTypeFromBody (body : Bytes) : Option String :=
  match s.codec.parseTransportJson body with
  | .ok payload => coerceTaskType s.codec.text (s.normalize payload)
  | .error _ => none

/-- `_persist_dlq_record`. -/
def persistDlqRecord (letter : DeadLetter) : Proc Unit :=
  if s.dlqStore then
    Proc.tryCatch (perform (.addDlqRecord letter)) fun
      | .cancelled => .raise .cancelled
      | exc =>
        s.emitObservation (.consumerDLQRecordPersistFailed s.consumerName letter.queueName
          letter.taskId letter.retryAttempt
          ⟨letter.sourceQueueName, letter.maxRetries, letter.reason⟩ exc.typeName exc.text)
  else pure ()

/-- What `_publish_retry` does in each consumer. The policy is the one in force, which for a
workflow stage is not that of the consumer. -/
def publishRetryCopy (policy : Option RetryPolicy) (d : Delivery) (retryAttempt maxRetries : Int)
    (reason : String) (exceptionType : Option String) (extraHeaders : Fields Value)
    (observation : RetryInfrastructure → Observation) : Proc Unit :=
  match d.retryInfrastructure with
  | none => .raise (runtimeError "Retry infrastructure is not initialized")
  | some infrastructure => do
    publishRaw infrastructure.retryQueueName
      { body := d.message.body
        correlationId := d.metadata.correlationId
        headers := retryHeaders d.metadata.headers d.sourceQueueName retryAttempt maxRetries reason
          exceptionType extraHeaders
        priority := retryPriority policy retryAttempt
        contentType := d.metadata.contentType }
    s.emitObservation (observation infrastructure)

/-- What `_publish_dead_letter` does in each consumer. -/
def publishDeadLetterCopy (policy : Option RetryPolicy) (d : Delivery) (taskId : Option String)
    (retryAttempt : Int) (reason : String) (exceptionType exceptionMessage : Option String)
    (extraHeaders : Fields Value) (observation : RetryInfrastructure → Int → Observation) :
    Proc Unit :=
  match d.retryInfrastructure, policy with
  | some infrastructure, some policy => do
    let headers := retryHeaders d.metadata.headers d.sourceQueueName retryAttempt policy.maxRetries
      reason exceptionType extraHeaders
    publishRaw infrastructure.deadLetterQueueName
      { body := d.message.body
        correlationId := d.metadata.correlationId
        headers
        contentType := d.metadata.contentType }
    s.emitObservation (observation infrastructure policy.maxRetries)
    s.persistDlqRecord
      { queueName := infrastructure.deadLetterQueueName
        sourceQueueName := d.sourceQueueName
        retryQueueName := infrastructure.retryQueueName
        taskId
        correlationId := d.metadata.correlationId
        reason
        exceptionType
        exceptionMessage
        retryAttempt
        maxRetries := policy.maxRetries
        headers
        contentType := d.metadata.contentType
        body := d.message.body
        consumerName := s.consumerName }
  | _, _ => .raise (runtimeError "Retry infrastructure is not initialized")

/-- `context.publish_status(...)` under `except Exception: return`. -/
def publishStatusIf (enabled : Bool) (taskId : String) (correlationId : Option String)
    (status message : String) (statusMeta : Fields Value) : Proc Unit :=
  if enabled then
    swallow (perform (.publishStatus taskId correlationId status message statusMeta))
  else pure ()

/-- What `_publish_retry_status` does in each consumer. -/
def publishRetryStatusOf (taskId : String) (correlationId : Option String)
    (nextAttempt maxRetries : Int) (statusMeta : Fields Value) : Proc Unit :=
  publishStatusIf s.retryStatuses.enabled taskId correlationId s.retryStatuses.retryingStatus
    ("Task processing failed. Scheduling retry " ++ toString nextAttempt ++ "/" ++
      toString maxRetries ++ ".")
    statusMeta

/-- What `_publish_dead_letter_status` does where retry statuses are enabled. -/
def publishDeadLetterStatusOf (taskId : String) (correlationId : Option String) (exc : Exc)
    (statusMeta : Fields Value) : Proc Unit :=
  publishStatusIf s.retryStatuses.enabled taskId correlationId s.retryStatuses.deadLetteredStatus
    (failureMessage exc s.retryStatuses.includeErrorMessage) statusMeta

end Settings

/-- `TaskLeaseStore` and `LeasePolicy` of a consumer whose policy is enabled. -/
structure Leasing where
  ownerId : String

/-- The heartbeat task is cancelled and awaited; the cancellation is expected, what the
heartbeat raised before it is not. -/
def joinHeartbeat : Proc Unit :=
  Proc.tryCatch (perform .joinHeartbeat) fun
    | .cancelled => pure ()
    | exc => .raise exc

end Relayna.Consumer
