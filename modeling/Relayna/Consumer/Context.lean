import Relayna.Contracts.Transport

/-!
# Message metadata, retry headers and the retry decision

The state of a retried message travels in its headers: `_retry_headers` writes the attempt
into the copy and `_retry_attempt_from_headers` reads it on the next delivery. Header values
are whatever a producer has put there and are read through `int(value)` under
`except (TypeError, ValueError)`, which an infinite float escapes.

The decision what to do with a failed message is taken by `StaticRetryDecisionPolicy`.
-/
namespace Relayna.Consumer

open Python Contracts

inductive FailureAction where
  | reject
  | requeue
  deriving DecidableEq, Repr

structure LifecycleStatusConfig where
  enabled : Bool := false
  processingStatus : String := "processing"
  completedStatus : String := "completed"
  failedStatus : String := "failed"
  includeErrorMessage : Bool := true

/-- A negative `retry_priority_step` is refused by `__post_init__`. -/
structure RetryPolicy where
  maxRetries : Int := 3
  delayMs : Int := 30000
  retryQueueSuffix : String := ".retry"
  deadLetterQueueSuffix : String := ".dlq"
  retryPriorityStep : Option Nat := none

structure RetryStatusConfig where
  enabled : Bool := false
  retryingStatus : String := "retrying"
  deadLetteredStatus : String := "failed"
  includeErrorMessage : Bool := true

structure RetryInfrastructure where
  sourceQueueName : String
  retryQueueName : String
  deadLetterQueueName : String

structure ManualRetryRequest where
  task : Value
  headers : Dict
  statusMessage : String
  statusMeta : Fields Value

/-- What an awaited operation or a conversion raises. `except Exception` catches all of these
but `cancelled`. `_ManualRetryRequested` is raised by `manual_retry` alone, which has recorded
its request before. -/
inductive Exc where
  | cancelled
  | manualRetryRequested (request : ManualRetryRequest)
  | timeoutError (text : String)
  | error (typeName text : String)

def Exc.typeName : Exc → String
  | .cancelled => "CancelledError"
  | .manualRetryRequested _ => "_ManualRetryRequested"
  | .timeoutError _ => "TimeoutError"
  | .error typeName _ => typeName

/-- `str(exc)`. -/
def Exc.text : Exc → String
  | .cancelled | .manualRetryRequested _ => ""
  | .timeoutError text | .error _ text => text

def overflowError (text : String) : Exc := .error "OverflowError" text

def runtimeError (text : String) : Exc := .error "RuntimeError" text

/-- A message as the broker delivers it, with what validation draws while it is handled. -/
structure Message where
  body : Bytes
  headers : Dict
  correlationId : Option String
  deliveryTag : Option Int
  redelivered : Bool
  contentType : Option String
  fresh : Fresh

structure MessageMetadata where
  headers : Dict
  correlationId : Option String
  deliveryTag : Option Int
  redelivered : Bool
  contentType : Option String
  retryAttempt : Int

/-- `int(value)` under `except (TypeError, ValueError)`: `none` when one of these is caught. -/
def caughtInt (v : Value) : Except Exc (Option Int) :=
  match v.toInt with
  | .ok n => .ok (some n)
  | .error .overflowError => .error (overflowError "cannot convert float infinity to integer")
  | .error _ => .ok none

/-- `_header_int`. -/
def headerInt (headers : Dict) (key : String) : Except Exc (Option Int) :=
  match headers key with
  | none | some .none => .ok none
  | some v => caughtInt v

/-- `_retry_attempt_from_headers`. -/
def retryAttemptFromHeaders (headers : Dict) : Except Exc Int :=
  (headerInt headers "x-relayna-retry-attempt").map fun n => max 0 (n.getD 0)

/-- `_extract_message_metadata`. -/
def extractMessageMetadata (message : Message) : Except Exc MessageMetadata :=
  (retryAttemptFromHeaders message.headers).map fun retryAttempt =>
    { headers := message.headers
      correlationId := message.correlationId
      deliveryTag := message.deliveryTag
      redelivered := message.redelivered
      contentType := message.contentType
      retryAttempt }

/-- `_header_string`. -/
def headerString (headers : Dict) (key : String) : Option String :=
  match headers key with
  | some (.str s) => nonEmpty (strip s)
  | _ => none

/-- `_string_or_none`. -/
def stringOrNone (text : Text) (v : Option Value) : Option String :=
  match v with
  | none | some .none => none
  | some v => nonEmpty (strip (text.str v))

/-- `_manual_retry_count`. -/
def manualRetryCount (headers : Dict) : Except Exc Int :=
  (headerInt headers "x-relayna-manual-retry-count").map fun n => max 0 (n.getD 0)

structure ManualRetryMeta where
  count : Int := 0
  previousTaskType : Option String := none
  sourceConsumer : Option String := none
  reason : Option String := none

/-- `_coerce_non_negative_int(value, fallback=0)`. -/
def coerceNonNegativeInt (v : Option Value) : Except Exc Int :=
  (caughtInt (v.getD .none)).map fun n => max 0 (n.getD 0)

/-- `_manual_retry_meta_from_status`. -/
def manualRetryMetaFromStatus (text : Text) (statusMeta : Fields Value) :
    Except Exc ManualRetryMeta :=
  match statusMeta.lookup "manual_retry" with
  | some (.dict fields) =>
    (coerceNonNegativeInt (fields.lookup "count")).map fun count =>
      { count
        previousTaskType := stringOrNone text (fields.lookup "previous_task_type")
        sourceConsumer := stringOrNone text (fields.lookup "source_consumer")
        reason := stringOrNone text (fields.lookup "reason") }
  | _ => .ok {}

structure TaskContext where
  consumerName : String
  rawPayload : Value
  correlationId : Option String
  deliveryTag : Option Int
  redelivered : Bool
  taskId : String
  retryAttempt : Int
  maxRetries : Option Int
  sourceQueueName : String
  batchId : Option String := none
  batchIndex : Option Int := none
  batchSize : Option Int := none
  headers : Dict
  isTaskContext : Bool := true
  manualRetryCount : Int
  manualRetryPreviousTaskType : Option String
  manualRetrySourceConsumer : Option String
  manualRetryReason : Option String

structure WorkflowContext where
  consumerName : String
  stage : String
  rawPayload : Value
  correlationId : Option String
  deliveryTag : Option Int
  redelivered : Bool
  taskId : String
  messageId : String
  originStage : Option String
  retryAttempt : Int
  maxRetries : Option Int
  sourceQueueName : String
  headers : Dict

/-- `_retry_headers`. -/
def retryHeaders (messageHeaders : Dict) (sourceQueueName : String) (retryAttempt maxRetries : Int)
    (reason : String) (exceptionType : Option String) (extraHeaders : Fields Value) : Dict :=
  (extraHeaders.foldl (fun headers (key, v) => headers.set key v) messageHeaders)
    |>.set "x-relayna-retry-attempt" (.int retryAttempt)
    |>.set "x-relayna-max-retries" (.int maxRetries)
    |>.set "x-relayna-source-queue" (.str sourceQueueName)
    |>.set "x-relayna-failure-reason" (.str reason)
    |>.set "x-relayna-exception-type" ((exceptionType.map Value.str).getD .none)

def retryHeaderNames : List String :=
  ["x-relayna-retry-attempt", "x-relayna-max-retries", "x-relayna-source-queue",
   "x-relayna-failure-reason", "x-relayna-exception-type"]

/-- `_merge_batch_retry_headers(context, None)`. -/
def mergeBatchRetryHeaders (context : TaskContext) : Fields Value :=
  (context.batchId.map fun s => ("batch_id", Value.str s)).toList ++
    (context.batchIndex.map fun n => ("batch_index", Value.int n)).toList ++
    (context.batchSize.map fun n => ("batch_size", Value.int n)).toList

/-- `_retry_priority`. -/
def retryPriority (policy : Option RetryPolicy) (retryAttempt : Int) : Option Int :=
  (policy.bind (·.retryPriorityStep)).map fun step => min (retryAttempt * step) 255

/-- `_failure_message`. -/
def failureMessage (exc : Exc) (includeErrorMessage : Bool) : String :=
  if includeErrorMessage && strip exc.text != "" then strip exc.text
  else "Task processing failed."

/-- `_parent_task_id_from_meta`. -/
def parentTaskIdFromMeta (text : Text) (statusMeta : Fields Value) : Option String :=
  nonEmpty (text.stripped (statusMeta.lookup "parent_task_id"))

inductive RetryDecisionAction where
  | retry
  | deadLetter
  | reject
  | requeue
  deriving DecidableEq, Repr

/-- The fields of a `RetryDecisionContext` that the static policy reads. -/
structure RetryDecisionContext where
  retryAttempt : Int
  reason : String
  maxRetries : Option Int
  failureAction : FailureAction := .reject

structure RetryDecision where
  action : RetryDecisionAction
  retryAttempt : Int
  maxRetries : Option Int
  reason : String
  deriving DecidableEq, Repr

/-- `StaticRetryDecisionPolicy.decide_retry`. -/
def decideRetry (context : RetryDecisionContext) : RetryDecision :=
  match context.maxRetries with
  | none =>
    { action := if context.failureAction = .requeue then .requeue else .reject
      retryAttempt := context.retryAttempt
      maxRetries := none
      reason := context.reason }
  | some maxRetries =>
    if context.retryAttempt < maxRetries then
      { action := .retry
        retryAttempt := context.retryAttempt + 1
        maxRetries := some maxRetries
        reason := context.reason }
    else
      { action := .deadLetter
        retryAttempt := context.retryAttempt
        maxRetries := some maxRetries
        reason := context.reason }

section Decision

variable {retryAttempt maxRetries : Int} {reason : String} {failureAction : FailureAction}

theorem decideRetry_none :
    decideRetry ⟨retryAttempt, reason, none, failureAction⟩ =
      ⟨if failureAction = .requeue then .requeue else .reject, retryAttempt, none, reason⟩ := rfl

theorem decideRetry_of_lt (h : retryAttempt < maxRetries) :
    decideRetry ⟨retryAttempt, reason, some maxRetries, failureAction⟩ =
      ⟨.retry, retryAttempt + 1, some maxRetries, reason⟩ := by
  simp [decideRetry, h]

theorem decideRetry_of_le (h : maxRetries ≤ retryAttempt) :
    decideRetry ⟨retryAttempt, reason, some maxRetries, failureAction⟩ =
      ⟨.deadLetter, retryAttempt, some maxRetries, reason⟩ := by
  simp [decideRetry, not_lt.mpr h]

end Decision

/-- A header is read without a raise unless it is an infinite float. -/
def Readable (headers : Dict) (key : String) : Prop :=
  ∀ v, headers key = some v → v.isInfinite = false

theorem caughtInt_ok_iff (v : Value) : (∃ n, caughtInt v = .ok n) ↔ v.isInfinite = false := by
  have overflow := v.toInt_eq_overflowError_iff
  unfold caughtInt
  cases hv : v.toInt with
  | ok n => simp_all
  | error e => cases e <;> simp_all

theorem headerInt_ok_iff (headers : Dict) (key : String) :
    (∃ n, headerInt headers key = .ok n) ↔ Readable headers key := by
  unfold headerInt Readable
  cases h : headers key with
  | none => simp
  | some v =>
    cases v with
    | none => simp [Value.isInfinite]
    | _ => simpa using caughtInt_ok_iff _

theorem map_ok_iff {α β : Type} {x : Except Exc α} {f : α → β} :
    (∃ b, x.map f = .ok b) ↔ ∃ a, x = .ok a := by
  cases x <;> simp [Except.map]

theorem extractMessageMetadata_ok {message : Message} {metadata : MessageMetadata}
    (h : extractMessageMetadata message = .ok metadata) :
    metadata.headers = message.headers ∧
      retryAttemptFromHeaders message.headers = .ok metadata.retryAttempt := by
  unfold extractMessageMetadata at h
  cases ha : retryAttemptFromHeaders message.headers with
  | error e => simp [ha, Except.map] at h
  | ok attempt =>
    simp only [ha, Except.map, Except.ok.injEq] at h
    exact ⟨h ▸ rfl, h ▸ rfl⟩

theorem retryAttemptFromHeaders_nonneg {headers : Dict} {attempt : Int}
    (h : retryAttemptFromHeaders headers = .ok attempt) : 0 ≤ attempt := by
  unfold retryAttemptFromHeaders at h
  cases hn : headerInt headers "x-relayna-retry-attempt" with
  | error e => simp [hn, Except.map] at h
  | ok n =>
    simp only [hn, Except.map, Except.ok.injEq] at h
    omega

/-- The headers with those of a batch item written back as they have been read, where they can
be. -/
def restated (headers : Dict) : Dict := fun key =>
  if key = "batch_id" then ((headerString headers key).map Value.str).or (headers key)
  else if key = "batch_index" ∨ key = "batch_size" then
    ((headerInt headers key).toOption.join.map Value.int).or (headers key)
  else headers key

section RetryHeaders

variable (headers : Dict) (sourceQueueName reason : String) (attempt maxRetries : Int)
  (exceptionType : Option String) (extraHeaders : Fields Value)

theorem retryHeaders_attempt :
    retryHeaders headers sourceQueueName attempt maxRetries reason exceptionType extraHeaders
      "x-relayna-retry-attempt" = some (.int attempt) := by
  simp [retryHeaders, Dict.set, Function.update]

/-- The next delivery reads the attempt that was written. -/
theorem retryAttemptFromHeaders_of_int {headers : Dict} {attempt : Int}
    (h : headers "x-relayna-retry-attempt" = some (.int attempt)) (hn : 0 ≤ attempt) :
    retryAttemptFromHeaders headers = .ok attempt := by
  have : max 0 attempt = attempt := max_eq_right hn
  simpa [retryAttemptFromHeaders, headerInt, h, caughtInt, Value.toInt, Except.map] using this

theorem foldl_set_apply (key : String) :
    (extraHeaders.foldl (fun headers (key, v) => headers.set key v) headers) key = headers key ∨
      ∃ v, (key, v) ∈ extraHeaders ∧
        (extraHeaders.foldl (fun headers (key, v) => headers.set key v) headers) key =
          some v := by
  induction extraHeaders generalizing headers with
  | nil => exact Or.inl rfl
  | cons entry rest ih =>
    obtain ⟨name, w⟩ := entry
    obtain unchanged | ⟨v, hv, last⟩ := ih (headers.set name w)
    · by_cases here : key = name
      · subst here
        refine Or.inr ⟨w, List.mem_cons_self, ?_⟩
        simpa [Dict.set] using unchanged
      · refine Or.inl (unchanged.trans ?_)
        exact Function.update_of_ne here _ _
    · exact Or.inr ⟨v, List.mem_cons_of_mem _ hv, last⟩

theorem retryHeaders_extra {kept : Dict}
    (extra : extraHeaders.foldl (fun headers (key, v) => headers.set key v) headers = kept) :
    retryHeaders headers sourceQueueName attempt maxRetries reason exceptionType extraHeaders =
      retryHeaders kept sourceQueueName attempt maxRetries reason exceptionType [] := by
  rw [← extra]
  rfl

/-- Every header but the retry headers is that of the message or an extra one. -/
theorem retryHeaders_of_notMem {key : String} (retry : key ∉ retryHeaderNames) :
    retryHeaders headers sourceQueueName attempt maxRetries reason exceptionType extraHeaders key =
      (extraHeaders.foldl (fun headers (key, v) => headers.set key v) headers) key := by
  simp only [retryHeaderNames, List.mem_cons, List.not_mem_nil, or_false, not_or] at retry
  obtain ⟨h₁, h₂, h₃, h₄, h₅⟩ := retry
  simp only [retryHeaders, Dict.set, Function.update_of_ne h₁, Function.update_of_ne h₂,
    Function.update_of_ne h₃, Function.update_of_ne h₄, Function.update_of_ne h₅]

end RetryHeaders

/-- The fields of a context that a copy of the message is made from. -/
structure TaskContext.Reflects (context : TaskContext) (metadata : MessageMetadata) : Prop where
  attempt : context.retryAttempt = metadata.retryAttempt
  batchId : context.batchId = headerString metadata.headers "batch_id"
  batchIndex : headerInt metadata.headers "batch_index" = .ok context.batchIndex
  batchSize : headerInt metadata.headers "batch_size" = .ok context.batchSize

/-- A header is set if there is a value for it. -/
theorem foldl_set_optional (headers : Dict) (name key : String) (v : Option Value) :
    ((v.map fun v => (name, v)).toList.foldl (fun headers (key, v) => headers.set key v) headers)
      key = if key = name then v.or (headers key) else headers key := by
  cases v <;> simp [Dict.set, Function.update]

/-- What is written back are the headers as the context has read them. -/
theorem TaskContext.Reflects.restates {context : TaskContext} {metadata : MessageMetadata}
    (h : context.Reflects metadata) :
    (mergeBatchRetryHeaders context).foldl (fun headers (key, v) => headers.set key v)
      metadata.headers = restated metadata.headers := by
  have entries : mergeBatchRetryHeaders context =
      ((context.batchId.map Value.str).map fun v => ("batch_id", v)).toList ++
        ((context.batchIndex.map Value.int).map fun v => ("batch_index", v)).toList ++
        ((context.batchSize.map Value.int).map fun v => ("batch_size", v)).toList := by
    simp only [mergeBatchRetryHeaders, Option.map_map]
    rfl
  have index : (headerInt metadata.headers "batch_index").toOption.join = context.batchIndex :=
    congrArg (fun x => (Except.toOption x).join) h.batchIndex
  have size : (headerInt metadata.headers "batch_size").toOption.join = context.batchSize :=
    congrArg (fun x => (Except.toOption x).join) h.batchSize
  funext key
  rw [entries, List.foldl_append, List.foldl_append, foldl_set_optional, foldl_set_optional,
    foldl_set_optional, h.batchId, ← index, ← size, restated]
  by_cases first : key = "batch_id"
  · subst first
    rfl
  · by_cases second : key = "batch_index"
    · subst second
      rfl
    · rw [if_neg first, if_neg first, if_neg second]
      by_cases third : key = "batch_size"
      · subst third
        rfl
      · rw [if_neg third, if_neg (not_or.mpr ⟨second, third⟩)]

end Relayna.Consumer
