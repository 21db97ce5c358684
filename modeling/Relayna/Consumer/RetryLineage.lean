import Relayna.Consumer.ManualRetry
import Relayna.Consumer.RetryBudget
import Relayna.Consumer.Routine

/-!
# The lineage of a task that is handed over

A task goes from one consumer to the next when a handler asks for a manual retry and the task that
is published for it is consumed again. Between two such hops the message may come back any number
of times by automatic retries. `Carries` says what a hop carries over, `Lineage` is a chain of
deliveries.
-/
namespace Relayna.Consumer

open Python Contracts Await Rabbitmq Failing

/-! ## The context that the handler gets -/

namespace TaskConsumer

variable {bad : Op → Bool} (c : TaskConsumer) (d : Delivery) (task : TaskEnvelope)
  {context : TaskContext}

section Avoids

variable (good : ∀ op : Op, op.isHandler = false → bad op = false)
  (own : bad (.handler context) = false)

include good

theorem good_of_routine (op : Op) (routine : op.routine = true) : bad op = false := by
  refine good op ?_
  cases op with
  | handler | workflowHandler => cases routine
  | _ => rfl

theorem emitTaskResourceSample_avoids (kind : SampleKind) :
    Avoids bad (c.emitTaskResourceSample d task context kind) := by
  unfold emitTaskResourceSample
  split
  · refine (Avoids.perform (good _ rfl)).attempt.bind fun sampled => ?_
    split
    · exact (emitObservation_avoids _ (good _ rfl)).bind fun _ => record_avoids _ (good _ rfl)
    · exact .pure _
  · exact .pure _

theorem beginTask_avoids : Avoids bad (c.beginTask d task context) :=
  (c.publishLifecycleStatus_avoids d (good_of_routine good) context _ _).bind fun _ =>
    c.emitTaskResourceSample_avoids d task good .start

theorem finishTask_avoids (begun ended : Except Exc Unit) :
    Avoids bad (c.finishTask d task context begun ended) := by
  have outcome : Avoids bad (c.recordOutcome (d.labels .task task.taskType) ended) := by
    unfold Settings.recordOutcome
    split
    · exact record_avoids _ (good _ rfl)
    · exact .pure _
    · exact record_avoids _ (good _ rfl)
  cases begun with
  | error exc => exact outcome
  | ok _ => exact (c.emitTaskResourceSample_avoids d task good .finish).bind fun _ => outcome

include own

theorem runHandler_avoids : Avoids bad (c.runHandler d context) := by
  refine Avoids.bind ((Avoids.perform own).tryCatch fun exc => ?_) fun request => ?_
  · cases exc with
    | manualRetryRequested request => exact .pure _
    | _ => exact .raise _
  · cases request with
    | none => exact c.publishLifecycleStatus_avoids d (good_of_routine good) context _ _
    | some request =>
      exact (swallow_avoids (.perform (good _ rfl))).bind fun _ => .perform (good _ rfl)

theorem processTask_avoids : Avoids bad (c.processTask d task context) := by
  unfold processTask
  refine Avoids.bind ?_ fun _ => (c.beginTask_avoids d task good).attempt.bind fun begun =>
    Avoids.bind (Avoids.attempt (Avoids.bind ?_ fun _ => c.runHandler_avoids d good own))
      fun ended => .tryFinally ?_ fun _ => c.finishTask_avoids d task good begun ended
  · unfold Settings.recordTaskStarted
    split
    · split
      · exact note_avoids (good _ rfl)
      · exact .raise _
    · exact .pure _
  · cases begun with
    | ok _ => exact .pure _
    | error exc => exact .raise _
  · have failed (exc : Exc) : Avoids bad (c.onHandlerFailed d task context exc) :=
      c.onHandlerFailed_avoids d (good_of_routine good) (fun _ => good _ rfl) task context exc
    cases ended with
    | ok _ => exact .pure _
    | error exc =>
      cases exc with
      | cancelled => exact .raise _
      | _ => exact failed _

theorem processTaskWithLease_avoids : Avoids bad (c.processTaskWithLease d task context) := by
  unfold processTaskWithLease
  split
  · exact c.processTask_avoids d task good own
  · refine (Avoids.perform (good _ rfl)).bind fun granted => ?_
    cases granted with
    | true =>
      refine (c.processTask_avoids d task good own).tryFinally fun _ => Avoids.bind ?_ fun _ =>
        .perform (good _ rfl)
      refine (Avoids.perform (good _ rfl)).tryCatch fun exc => ?_
      cases exc with
      | cancelled => exact .pure _
      | _ => exact .raise _
    | false =>
      exact (emitObservation_avoids _ (good _ rfl)).bind fun _ =>
        (Avoids.perform (good _ rfl)).bind fun _ => .pure _

end Avoids

end TaskConsumer

/-! ## Deliveries -/

/-- A message that a consumer takes for a task, with the run in which it was handled. -/
structure Reception (codec : Codec) where
  consumer : TaskConsumer
  message : Message
  metadata : MessageMetadata
  sourceQueueName : String
  infrastructure : Option RetryInfrastructure
  fields : Fields Value
  task : TaskEnvelope
  context : TaskContext
  events : List Event
  result : Except Exc Unit
  codec_eq : consumer.codec = codec
  read : extractMessageMetadata message = .ok metadata
  parsed : codec.parseTransportJson message.body = .ok (.dict fields)
  single : isBatchTaskPayload
    (normalizeContractAliases codec.text fields consumer.aliasConfig) = false
  valid : codec.validateTask message.fresh
    (.dict (normalizeContractAliases codec.text fields consumer.aliasConfig)) = some task
  made : consumer.makeTaskContext ⟨message, metadata, sourceQueueName, infrastructure⟩ task
    (.dict (normalizeContractAliases codec.text fields consumer.aliasConfig)) = .ok context
  run : Run (consumer.handleMessage message sourceQueueName infrastructure) events result

namespace Reception

variable {codec : Codec} (x : Reception codec)

/-- The raw payload of the context. -/
def raw : Fields Value := normalizeContractAliases codec.text x.fields x.consumer.aliasConfig

def delivery : Delivery := ⟨x.message, x.metadata, x.sourceQueueName, x.infrastructure⟩

def handled : Handled := ⟨x.message, x.events, x.result⟩

/-- What the context has from the message. -/
structure Sees (headers : Dict) (context : TaskContext) : Prop where
  copied : context.headers = headers
  retryAttempt : retryAttemptFromHeaders headers = .ok context.retryAttempt
  count : manualRetryCount headers = .ok context.manualRetryCount
  previousTaskType : context.manualRetryPreviousTaskType =
    headerString headers "x-relayna-manual-retry-from-task-type"
  sourceConsumer : context.manualRetrySourceConsumer =
    headerString headers "x-relayna-manual-retry-source-consumer"
  reason : context.manualRetryReason = headerString headers "x-relayna-manual-retry-reason"

theorem context_eq : Sees x.message.headers x.context ∧ x.context.taskId = x.task.taskId ∧
    x.context.correlationId = orText x.task.correlationId x.message.correlationId ∧
    x.context.rawPayload = .dict x.raw ∧ x.context.consumerName = x.consumer.consumerName := by
  obtain ⟨headers, attempt⟩ := extractMessageMetadata_ok x.read
  have correlationId : x.metadata.correlationId = x.message.correlationId := by
    obtain ⟨_, -, same⟩ := map_ok.mp x.read
    rw [← same]
  have made := x.made
  unfold TaskConsumer.makeTaskContext at made
  obtain ⟨index, -, made⟩ := bind_ok.mp made
  obtain ⟨size, -, made⟩ := bind_ok.mp made
  obtain ⟨count, hcount, made⟩ := bind_ok.mp made
  have same := (Except.ok.inj made).symm
  simp only at same hcount
  rw [headers] at hcount
  rw [same, ← correlationId]
  exact ⟨⟨headers, attempt, hcount, by rw [← headers], by rw [← headers], by rw [← headers]⟩,
    rfl, rfl, rfl, rfl⟩

/-- Whatever handler is called is called with the context of the message. -/
theorem handler_context {context : TaskContext} {answer : Except Exc (Option ManualRetryRequest)}
    (called : (⟨.handler context, answer⟩ : Event) ∈ x.events) : context = x.context := by
  classical
  let bad : Op → Bool := fun op => decide (∃ context, op = .handler context ∧ context ≠ x.context)
  have good (op : Op) (plain : op.isHandler = false) : bad op = false := by
    refine decide_eq_false ?_
    rintro ⟨context, rfl, -⟩
    cases plain
  have own : bad (.handler x.context) = false := by
    refine decide_eq_false ?_
    rintro ⟨context, same, other⟩
    exact other (Op.handler.inj same).symm
  have avoids : Avoids bad
      (x.consumer.handleMessage x.message x.sourceQueueName x.infrastructure) := by
    have impl : x.consumer.handleMessage x.message x.sourceQueueName x.infrastructure =
        x.consumer.handleMessageImpl x.delivery := by
      unfold TaskConsumer.handleMessage
      rw [x.read]
      rfl
    rw [impl]
    have parsed : x.consumer.codec.parseTransportJson x.delivery.message.body =
        .ok (.dict x.fields) := by
      rw [x.codec_eq]
      exact x.parsed
    have normal : x.consumer.normalize (.dict x.fields) = .dict x.raw := by
      unfold Settings.normalize raw
      rw [x.codec_eq]
      rfl
    have single : TaskConsumer.asBatch (.dict x.raw) = none :=
      if_neg (Bool.eq_false_iff.mp x.single)
    have valid : x.consumer.codec.validateTask x.delivery.message.fresh (.dict x.raw) =
        some x.task := by
      rw [x.codec_eq]
      exact x.valid
    have made : x.consumer.makeTaskContext x.delivery x.task (.dict x.raw) = .ok x.context :=
      x.made
    unfold TaskConsumer.handleMessageImpl
    simp only [parsed, normal, single]
    refine (emitObservation_avoids _ (good _ rfl)).bind fun _ => ?_
    unfold TaskConsumer.handleSingleMessage
    simp only [valid, made]
    change Avoids bad (x.consumer.processTaskWithLease x.delivery x.task x.context >>= _)
    refine (x.consumer.processTaskWithLease_avoids x.delivery x.task good own).bind
      fun success => ?_
    split
    · exact (Avoids.perform (good _ rfl)).bind fun _ => emitObservation_avoids _ (good _ rfl)
    · exact .pure _
  have only := avoids (fun t => ∀ context answer, (⟨.handler context, answer⟩ : Event) ∈ t →
    context = x.context) (fun t e h plain context answer member => ?_) [] x.events x.result
    (by simp) x.run
  · cases hr : x.result with
    | ok _ =>
      rw [hr] at only
      exact only _ _ called
    | error _ =>
      rw [hr] at only
      exact only _ _ called
  · obtain member | member := List.mem_append.mp member
    · exact h _ _ member
    · obtain rfl := List.mem_singleton.mp member
      by_contra other
      have : bad (.handler context) = true := decide_eq_true ⟨context, rfl, other⟩
      exact absurd (this.symm.trans plain) (by decide)

end Reception

/-! ## One hop -/

/-- The request that a handler has left, by a return or a raise. -/
def Asks (answer : Except Exc (Option ManualRetryRequest)) (request : ManualRetryRequest) : Prop :=
  answer = .ok (some request) ∨ answer = .error (.manualRetryRequested request)

/-- What is published has been asked for. -/
theorem Reaches.asked {p : Plan} {past : List Event} {phase : Phase}
    {request : ManualRetryRequest} {answer : Except Exc Unit} (h : Reaches p past phase)
    (published : (⟨.publishTask request, answer⟩ : Event) ∈ past) :
    ∃ context answer, (⟨.handler context, answer⟩ : Event) ∈ past ∧ Asks answer request := by
  induction h with
  | start => cases published
  | snoc reaches advance ih =>
    obtain before | now := List.mem_append.mp published
    · obtain ⟨context, answer, member, asks⟩ := ih before
      exact ⟨context, answer, List.mem_append_left _ member, asks⟩
    · obtain rfl := List.mem_singleton.mp now
      cases advance with
      | auxiliary aux => cases aux
      | handedOver =>
        obtain ⟨context, answer, member, asks⟩ := reaches.evidence
        exact ⟨context, answer, List.mem_append_left _ member, asks⟩
      | notHandedOver =>
        obtain ⟨context, answer, member, asks⟩ := reaches.evidence
        exact ⟨context, answer, List.mem_append_left _ member, asks⟩

/-- The headers that carry the lineage, and those of the automatic retries. -/
def lineageHeaderNames : List String := retryHeaderNames ++ manualRetryHeaderNames

/-- The headers of the argument leave the lineage alone. -/
def ManualRetryArgs.Plain (args : ManualRetryArgs) : Prop :=
  ∀ key ∈ "task_id" :: lineageHeaderNames, key ∉ (args.headers.getD []).map Prod.fst

/-- The name of a field is no alias. -/
def Unaliased (aliasConfig : Option ContractAliasConfig) (key : String) : Prop :=
  ∀ entry ∈ aliasMap aliasConfig, key ≠ entry.2

variable {codec : Codec} {rewritten : String → Prop} {args : ManualRetryArgs}
  {client : TaskPublisher} {v x y : Reception codec}

/-- The handler of `x` has called `manual_retry`, the task has been published by the client of the
consumer, and the message is received as `y`. Between a publish and the delivery some headers are
rewritten, those of the trace propagator and of the broker. -/
structure HandsOver (rewritten : String → Prop) (args : ManualRetryArgs) (client : TaskPublisher)
    (x y : Reception codec) : Prop where
  codec_eq : client.codec = codec
  published : ∃ request fresh message,
    (⟨.publishTask request, .ok ()⟩ : Event) ∈ x.events ∧
    (∀ context answer, (⟨.handler context, answer⟩ : Event) ∈ x.events → Asks answer request →
      ∃ fresh again, context.manualRetry args codec fresh again = .ok request) ∧
    publishTask client fresh request = .ok message ∧ y.message.body = message.body ∧
    ∀ key, ¬rewritten key → y.message.headers key = message.headers key

/-- What a hop carries over to the next consumer. -/
structure Carries (rewritten : String → Prop) (args : ManualRetryArgs) (client : TaskPublisher)
    (x y : Reception codec) : Prop where
  taskId : y.context.taskId = x.context.taskId
  count : y.context.manualRetryCount = x.context.manualRetryCount + 1
  attempt : y.context.retryAttempt = 0
  headers : ∀ key ∉ "task_id" :: lineageHeaderNames, ¬rewritten key →
    key ∉ (args.headers.getD []).map Prod.fst → y.context.headers key = x.context.headers key
  taskIdHeader : ¬rewritten "task_id" →
    y.context.headers "task_id" = some (.str x.context.taskId)
  previousTaskType : y.context.manualRetryPreviousTaskType =
    x.task.taskType.bind fun s => nonEmpty (strip s)
  sourceConsumer : y.context.manualRetrySourceConsumer =
    nonEmpty (strip x.consumer.consumerName)
  reason : y.context.manualRetryReason = args.reason.bind fun s => nonEmpty (strip s)
  correlationId : ∀ s, Unaliased client.aliasConfig "correlation_id" →
    Unaliased y.consumer.aliasConfig "correlation_id" →
    (args.correlationId.bind nonEmpty).or ((x.task.correlationId.bind nonEmpty).or
      (x.message.correlationId.bind nonEmpty)) = some s →
    y.raw.lookup "correlation_id" = some (.str s)
  fields : ∃ current, Dumped codec x.raw current ∧ ∀ key v, key ∉ args.overridden →
    key ≠ "correlation_id" → Unaliased client.aliasConfig key →
    Unaliased y.consumer.aliasConfig key → current.lookup key = some v →
    y.raw.lookup key = some v

/-- The request is what `manual_retry` makes of the context of the message. -/
theorem HandsOver.request (h : HandsOver rewritten args client x y) :
    ∃ request fresh again drawn message,
      x.context.manualRetry args codec fresh again = .ok request ∧
      publishTask client drawn request = .ok message ∧ y.message.body = message.body ∧
      ∀ key, ¬rewritten key → y.message.headers key = message.headers key := by
  obtain ⟨request, drawn, message, published, asked, sent, body, headers⟩ := h.published
  have run : Run ((AnyConsumer.task x.consumer).handle x.message x.sourceQueueName
    x.infrastructure) x.events x.result := x.run
  obtain none_ | ⟨_, _, -, reaches⟩ := AnyConsumer.handle_reaches run
  · rw [none_] at published
    cases published
  · obtain ⟨context, answer, called, asks⟩ := reaches.asked published
    obtain rfl := x.handler_context called
    obtain ⟨fresh, again, made⟩ := asked _ _ called asks
    exact ⟨request, fresh, again, drawn, message, made, sent, body, headers⟩

theorem nonEmpty_strip_of_nonEmpty (s : Option String) :
    (s.bind nonEmpty).bind (fun s => nonEmpty (strip s)) = s.bind fun s => nonEmpty (strip s) := by
  cases s with
  | none => rfl
  | some s =>
    by_cases empty : s = ""
    · subst empty
      rfl
    · simp [nonEmpty, empty]

theorem nonEmpty_orText (a b : Option String) :
    (orText a b).bind nonEmpty = (a.bind nonEmpty).or (b.bind nonEmpty) := by
  unfold orText
  cases a with
  | none => rfl
  | some s =>
    by_cases empty : s = ""
    · subst empty
      rfl
    · simp [nonEmpty, empty]

theorem headerString_map {headers : Dict} {key : String} {s : Option String}
    (h : headers key = s.map .str) : headerString headers key = s.bind fun s =>
      nonEmpty (strip s) := by
  unfold headerString
  rw [h]
  cases s <;> rfl

/-- The task type as the header has it. -/
theorem previousTaskType_eq (text : Text) (taskType : Option String) :
    (nonEmpty (text.stripped (taskType.map .str))).bind (fun s => nonEmpty (strip s)) =
      taskType.bind fun s => nonEmpty (strip s) := by
  have stripped : text.stripped (taskType.map .str) = strip (taskType.getD "") := by
    cases taskType with
    | none => rfl
    | some s =>
      by_cases empty : s = ""
      · subst empty
        rfl
      · simp [Text.stripped, Value.truthy, empty, text.str_str]
  rw [stripped]
  cases taskType with
  | none => rfl
  | some s =>
    by_cases blank : strip s = ""
    · simp [nonEmpty, blank]
    · simp [nonEmpty, blank, Names.strip_strip]

/-- What the next consumer reads in the headers. -/
theorem Reception.Sees.of_written {headers : Dict} {context : TaskContext} {count : Int}
    {previousTaskType reason : Option String} {sourceConsumer : String}
    (sees : Reception.Sees headers context) (nonneg : 0 ≤ count)
    (written : Written count previousTaskType sourceConsumer reason headers) :
    context.manualRetryCount = count ∧ context.retryAttempt = 0 ∧
      context.manualRetryPreviousTaskType =
        previousTaskType.bind (fun s => nonEmpty (strip s)) ∧
      context.manualRetrySourceConsumer = nonEmpty (strip sourceConsumer) ∧
      context.manualRetryReason = reason.bind fun s => nonEmpty (strip s) := by
  have count_ : manualRetryCount headers = .ok count := by
    have : max 0 count = count := max_eq_right nonneg
    simpa [manualRetryCount, headerInt, written.count, caughtInt, Value.toInt, Except.map]
      using this
  have attempt : retryAttemptFromHeaders headers = .ok 0 := by
    simp [retryAttemptFromHeaders, headerInt, written.attempt, Except.map]
  refine ⟨Except.ok.inj (sees.count.symm.trans count_),
    Except.ok.inj (sees.retryAttempt.symm.trans attempt), ?_, ?_, ?_⟩
  · rw [sees.previousTaskType, headerString_map written.previousTaskType,
      nonEmpty_strip_of_nonEmpty]
  · have given : headers "x-relayna-manual-retry-source-consumer" =
        (some sourceConsumer).map .str := written.sourceConsumer
    rw [sees.sourceConsumer, headerString_map given, Option.bind_some]
  · rw [sees.reason, headerString_map written.reason, nonEmpty_strip_of_nonEmpty]

theorem Reception.Sees.count_nonneg {headers : Dict} {context : TaskContext}
    (sees : Reception.Sees headers context) : 0 ≤ context.manualRetryCount := by
  obtain ⟨n, -, h⟩ := map_ok.mp sees.count
  rw [← h]
  exact le_max_left _ _

/-- The fields of the published task, as the next consumer has them. -/
theorem Reception.lookup_raw {prepared sent : Fields Value} {key : String} {w : Value}
    {next : Fields Value} (laws : TaskModel codec) (prepares : Dumped codec next prepared)
    (sends : Dumped codec (normalizeContractAliases codec.text prepared client.aliasConfig) sent)
    (received : y.fields = sent) (ne : key ≠ "task_id")
    (free : Unaliased client.aliasConfig key) (free' : Unaliased y.consumer.aliasConfig key)
    (h : prepared.lookup key = some w) : y.raw.lookup key = some w := by
  have normal : (normalizeContractAliases codec.text prepared client.aliasConfig).lookup key =
      some w := lookup_normalize_of_free free ne h
  have out := prepares.again laws sends h normal
  rw [← received] at out
  exact lookup_normalize_of_free free' ne out

theorem HandsOver.carries (laws : TaskModel codec)
    (kept : ∀ key ∈ lineageHeaderNames, ¬rewritten key) (plain : args.Plain)
    (h : HandsOver rewritten args client x y) : Carries rewritten args client x y := by
  obtain ⟨request, fresh, again, drawn, message, made, sent, body, headers⟩ := h.request
  have codec_eq := h.codec_eq
  obtain ⟨seesX, taskIdX, correlationX, rawX, nameX⟩ := x.context_eq
  obtain ⟨seesY, taskIdY, -, -, -⟩ := y.context_eq
  obtain ⟨current, next, prepared, isCurrent, isNext, isPrepared, task, requested⟩ :=
    TaskContext.manualRetry_ok laws rawX made
  have clientLaws : TaskModel client.codec := codec_eq ▸ laws
  obtain ⟨out, isOut, parsed, sentHeaders⟩ := publishTask_ok clientLaws task sent
  rw [codec_eq] at isOut parsed
  have received : y.fields = out := by
    have := y.parsed
    rw [body, parsed] at this
    exact (Value.dict.inj (Except.ok.inj this)).symm
  obtain ⟨taskId, correlationId, others⟩ := TaskContext.nextTask_ok isNext
  -- the headers
  have plain' : ∀ key ∈ "task_id" :: retryHeaderNames ++ manualRetryHeaderNames,
      key ∉ (args.headers.getD []).map Prod.fst := plain
  have lineage : ∀ key ∈ lineageHeaderNames, y.message.headers key = request.headers key := by
    intro key member
    rw [headers key (kept key member)]
    refine sentHeaders key (Or.inl ?_)
    rintro rfl
    revert member
    decide
  have written := (manualRetryHeaders_written plain').congr (requested ▸ lineage)
  have nonneg := seesX.count_nonneg
  obtain ⟨count, attempt, previous, source, reason⟩ := seesY.of_written (by omega) written
  have preparedId : prepared.lookup "task_id" = some (.str x.context.taskId) :=
    isPrepared.taskId laws taskId
  have receivedId : y.fields.lookup "task_id" = some (.str x.context.taskId) := by
    obtain ⟨fresh, e, valid, outId, -⟩ := isOut.texts laws
    rw [received, outId, (laws.normalized_taskId valid preparedId).2]
  refine ⟨?_, count, attempt, fun key other free absent => ?_, fun free => ?_, ?_, ?_, reason,
    fun s free free' given => ?_, current, isCurrent, fun key w absent ne free free' h => ?_⟩
  · exact taskIdY.trans (laws.normalized_taskId y.valid receivedId).2
  · rw [seesY.copied, seesX.copied, headers key free, sentHeaders key, requested,
      manualRetryHeaders_of_notMem absent other, seesX.copied]
    refine Or.inl fun same => other ?_
    rw [same]
    exact List.mem_cons_self
  · have given : request.headers "task_id" = some (.str x.context.taskId) := by
      rw [requested]
      exact manualRetryHeaders_taskId plain'
    rw [seesY.copied, headers _ free, sentHeaders _ (Or.inr (by rw [given]; rfl)), given]
  · obtain ⟨fresh, e, valid, -, taskType⟩ := isCurrent.texts laws
    rw [previous, taskType, previousTaskType_eq, (laws.texts x.valid valid).2]
  · rw [source, nameX]
  · have next_ : next.lookup "correlation_id" = some (.str s) := by
      rw [correlationId, correlationX, nonEmpty_orText, given]
      rfl
    have prepared_ := isPrepared.correlationId laws next_
    exact Reception.lookup_raw laws isPrepared isOut received (by decide) free free' prepared_
  · by_cases id : key = "task_id"
    · obtain ⟨fresh, e, valid, currentId, -⟩ := isCurrent.texts laws
      rw [(laws.texts x.valid valid).1, ← taskIdX] at currentId
      rw [id] at h ⊢
      rw [← h, currentId]
      exact (laws.normalized_taskId y.valid receivedId).1
    · have next_ : next.lookup key = some w := (others key absent id ne).trans h
      exact Reception.lookup_raw laws isPrepared isOut received id free free'
        (isCurrent.again laws isPrepared h next_)

/-! ## A chain of deliveries -/

/-- The message has come back to the consumer by an automatic retry. -/
structure Retried (rewritten : String → Prop) (x y : Reception codec) : Prop where
  consumer : y.consumer = x.consumer
  hop : ∃ r : Route, r.consumer = .task x.consumer ∧ r.sourceQueueName = x.sourceQueueName ∧
    some r.infrastructure = x.infrastructure ∧ r.rewritten = rewritten ∧
    r.Hop x.handled y.handled

/-- From the delivery `v`, by automatic retries and by one hop for each of the arguments. -/
inductive Lineage (rewritten : String → Prop) (v : Reception codec) :
    List ManualRetryArgs → Reception codec → Prop where
  | received : Lineage rewritten v [] v
  | retried {hops : List ManualRetryArgs} {x y : Reception codec} :
      Lineage rewritten v hops x → Retried rewritten x y → Lineage rewritten v hops y
  | handedOver {hops : List ManualRetryArgs} {x y : Reception codec} {args : ManualRetryArgs}
      {client : TaskPublisher} :
      Lineage rewritten v hops x → args.Plain → HandsOver rewritten args client x y →
      Lineage rewritten v (hops ++ [args]) y

/-- The two contexts have the same task, and know the same of the last hop. -/
structure SameHop (context context' : TaskContext) : Prop where
  rawPayload : context.rawPayload = context'.rawPayload
  count : context.manualRetryCount = context'.manualRetryCount
  previousTaskType :
    context.manualRetryPreviousTaskType = context'.manualRetryPreviousTaskType
  sourceConsumer : context.manualRetrySourceConsumer = context'.manualRetrySourceConsumer
  reason : context.manualRetryReason = context'.manualRetryReason

theorem restated_of_manual {headers : Dict} {key : String} (manual : key ∈ manualRetryHeaderNames) :
    restated headers key = headers key := by
  unfold restated
  split_ifs with id number
  · subst id
    exact absurd manual (by decide)
  · obtain rfl | rfl := number <;> exact absurd manual (by decide)
  · rfl

theorem Reception.Sees.sameHop {headers copied : Dict} {context context' : TaskContext}
    (sees : Reception.Sees headers context) (sees' : Reception.Sees copied context')
    (same : ∀ key ∈ manualRetryHeaderNames, copied key = headers key)
    (rawPayload : context'.rawPayload = context.rawPayload) : SameHop context' context := by
  have text (key : String) (member : key ∈ manualRetryHeaderNames) :
      headerString copied key = headerString headers key := by
    unfold headerString
    rw [same key member]
  have count : manualRetryCount copied = manualRetryCount headers := by
    unfold manualRetryCount headerInt
    rw [same _ (by decide)]
  rw [sees'.count, sees.count] at count
  refine ⟨rawPayload, Except.ok.inj count, ?_, ?_, ?_⟩
  · rw [sees.previousTaskType, sees'.previousTaskType, text _ (by decide)]
  · rw [sees.sourceConsumer, sees'.sourceConsumer, text _ (by decide)]
  · rw [sees.reason, sees'.reason, text _ (by decide)]

/-- An automatic retry is no hop. -/
theorem Retried.sameHop (laws : TaskModel codec)
    (kept : ∀ key ∈ lineageHeaderNames, ¬rewritten key) (h : Retried rewritten x y) :
    y.context.taskId = x.context.taskId ∧ SameHop y.context x.context := by
  obtain ⟨r, task, queue, infrastructure, same, hop⟩ := h.hop
  have handles : r.Handles x.handled := by
    unfold Route.Handles
    rw [task, queue, infrastructure]
    exact x.run
  obtain ⟨-, -, body, headers⟩ := hop.carries handles
  obtain ⟨seesX, taskIdX, -, rawX, -⟩ := x.context_eq
  obtain ⟨seesY, taskIdY, -, rawY, -⟩ := y.context_eq
  have fields : y.fields = x.fields := by
    have parsed := y.parsed
    rw [show y.message.body = x.message.body from body, x.parsed] at parsed
    exact (Value.dict.inj (Except.ok.inj parsed)).symm
  have valid := y.valid
  rw [fields, h.consumer] at valid
  have raw : y.raw = x.raw := by rw [Reception.raw, fields, h.consumer, Reception.raw]
  refine ⟨?_, seesX.sameHop seesY (fun key manual => ?_) (by rw [rawX, rawY, raw])⟩
  · rw [taskIdX, taskIdY, (laws.texts x.valid valid).1]
  · refine (headers key ?_ ?_).trans ?_
    · revert key
      decide
    · rw [same]
      exact kept key (List.mem_append_right _ manual)
    · rw [task]
      exact restated_of_manual manual

/-- The `task_id` never changes and every hop counts as one, however often the message is retried in
between; what a context knows of the lineage is that of the last hop. -/
theorem manual_retry_lineage (laws : TaskModel codec)
    (kept : ∀ key ∈ lineageHeaderNames, ¬rewritten key) {hops : List ManualRetryArgs}
    (chain : Lineage rewritten v hops x) :
    x.context.taskId = v.context.taskId ∧
      x.context.manualRetryCount = v.context.manualRetryCount + hops.length ∧
      (hops = [] → SameHop x.context v.context) ∧
      ∀ args client y, args.Plain → HandsOver rewritten args client x y →
        Carries rewritten args client x y := by
  have next (x : Reception codec) : ∀ args client y, args.Plain →
      HandsOver rewritten args client x y → Carries rewritten args client x y :=
    fun _ _ _ plain h => h.carries laws kept plain
  induction chain with
  | received => exact ⟨rfl, by simp, fun _ => ⟨rfl, rfl, rfl, rfl, rfl⟩, next _⟩
  | retried _ retried ih =>
    obtain ⟨taskId, count, started, -⟩ := ih
    obtain ⟨taskId', same⟩ := retried.sameHop laws kept
    refine ⟨taskId'.trans taskId, same.count.trans count, fun none_ => ?_, next _⟩
    have before := started none_
    exact ⟨same.rawPayload.trans before.rawPayload, same.count.trans before.count,
      same.previousTaskType.trans before.previousTaskType,
      same.sourceConsumer.trans before.sourceConsumer, same.reason.trans before.reason⟩
  | handedOver _ plain handed ih =>
    obtain ⟨taskId, count, -, carries⟩ := ih
    have hop := carries _ _ _ plain handed
    refine ⟨hop.taskId.trans taskId, ?_, fun none_ => ?_, next _⟩
    · simp only [hop.count, count, List.length_append, List.length_singleton]
      omega
    · exact absurd none_ (List.append_ne_nil_of_right_ne_nil _ (List.cons_ne_nil _ _))

/-! ## A draft that is handed over -/

def draftTask : Fields Value :=
  [("task_id", .str "t"), ("payload", .dict []), ("created_at", .str "2026-01-01T00:00:00Z"),
    ("spec_version", .str "1.0"), ("svc", .str "blue")]

def sentTask : Fields Value :=
  [("task_id", .str "t"), ("payload", .dict []), ("created_at", .str "2026-01-01T00:00:00Z"),
    ("spec_version", .str "1.0"), ("correlation_id", .str "m"), ("service", .str "blue")]

/-- What is written after the fields that every task has. -/
def textWith (more : String) : Bytes := plainTaskText.dropLast ++ ascii more

def draftText : Bytes := textWith ",\"svc\":\"blue\"\x7d"

def sentText : Bytes := textWith ",\"correlation_id\":\"m\",\"service\":\"blue\"\x7d"

def handoffCodec : Codec :=
  { Codec.tabulated [(draftText, .dict draftTask), (sentText, .dict sentTask)] with
    validateTask := fun _ => validateTaskFields
    dumpTask := dumpTaskFields }

theorem textAt_of_validateTaskFields {given : Fields Value} {e : TaskEnvelope}
    (h : validateTaskFields (.dict given) = some e) :
    given.lookup "task_id" = some (.str e.taskId) ∧
      given.lookup "correlation_id" = e.correlationId.map .str := by
  simp only [validateTaskFields] at h
  split at h
  · rename_i taskId _ correlationId
    obtain rfl := Option.some.inj h
    exact ⟨textAt_eq_some taskId, textAt_eq_some correlationId⟩
  · cases h

theorem handoffCodec_laws : TaskModel handoffCodec where
  dumped h := by
    obtain ⟨given, -, rfl, -, taskId, taskType, correlationId⟩ := dumpTaskFields_ok h
    exact ⟨given, rfl, textAt_eq_some taskId, textAt_eq_some taskType,
      textAt_eq_some correlationId⟩
  taskId {_ given e} valid := by
    refine ⟨_, (textAt_of_validateTaskFields valid).1, fun s same => ?_⟩
    exact Value.str.inj same
  correlationId {_ given e s} valid text := by
    have := (textAt_of_validateTaskFields valid).2
    rw [text] at this
    cases hc : e.correlationId with
    | none =>
      rw [hc] at this
      cases this
    | some t =>
      rw [hc] at this
      rw [Value.str.inj (Option.some.inj this)]
  texts valid valid' := by
    obtain rfl := Option.some.inj (valid.symm.trans valid')
    exact ⟨rfl, rfl⟩
  settled {_ _ _ given' _ out' _ e' key w} _ _ valid' dump' _ taken := by
    obtain ⟨same, content, rest, -⟩ := dumpTaskFields_ok dump'
    obtain rfl := Value.dict.inj rest
    obtain rfl := Value.dict.inj (content.symm.trans (content_of_validateTaskFields valid'))
    exact taken
  parsed _ json := Codec.parses_tabulated (by decide +kernel) rfl json

def handoffWorker (name : String) : TaskConsumer :=
  { sharedWorker with
    codec := handoffCodec
    consumerName := name
    retryPolicy := none
    aliasConfig := some ⟨[]⟩ }

/-- Its client renames `svc`. -/
def handoffClient : TaskPublisher where
  codec := handoffCodec
  aliasConfig := some ⟨[("service", "svc")]⟩
  taskMaxPriority := none
  dumpBatch _ _ _ _ := .error ("ValidationError", "")

def draftHeaders : Dict := fun key => List.lookup key [("task_id", .str "other")]

def draftMessage : Message :=
  ⟨draftText, draftHeaders, some "m", some 1, false, some "application/json", ⟨"0", 0⟩⟩

def lateArgs : ManualRetryArgs := { reason := some " late " }

/-- The handler asks for a manual retry, and every other operation succeeds. -/
def handingOver : (op : Op) → Except Exc op.Reply
  | .handler context =>
    match context.manualRetry lateArgs handoffCodec ⟨"0", 0⟩ ⟨"0", 0⟩ with
    | .ok request => .error (.manualRetryRequested request)
    | .error _ => .ok none
  | op => granting op

def draftContext : TaskContext where
  consumerName := "drafter"
  rawPayload := .dict draftTask
  correlationId := some "m"
  deliveryTag := some 1
  redelivered := false
  taskId := "t"
  retryAttempt := 0
  maxRetries := none
  sourceQueueName := "drafts"
  headers := draftHeaders
  manualRetryCount := 0
  manualRetryPreviousTaskType := none
  manualRetrySourceConsumer := none
  manualRetryReason := none

def drafted : Reception handoffCodec where
  consumer := handoffWorker "drafter"
  message := draftMessage
  metadata := ⟨draftHeaders, some "m", some 1, false, some "application/json", 0⟩
  sourceQueueName := "drafts"
  infrastructure := none
  fields := draftTask
  task := ⟨"t", none, none, .dict draftTask⟩
  context := draftContext
  events := (((handoffWorker "drafter").handleMessage draftMessage "drafts" none).exec
    handingOver).1
  result := (((handoffWorker "drafter").handleMessage draftMessage "drafts" none).exec
    handingOver).2
  codec_eq := rfl
  read := rfl
  parsed := rfl
  single := rfl
  valid := rfl
  made := rfl
  run := run_exec handingOver ((handoffWorker "drafter").handleMessage draftMessage "drafts" none)

/-- What the handler asks for. -/
def draftRequest : ManualRetryRequest :=
  match draftContext.manualRetry lateArgs handoffCodec ⟨"0", 0⟩ ⟨"0", 0⟩ with
  | .ok request => request
  | .error _ => ⟨.none, fun _ => none, "", []⟩

theorem drafted_events : drafted.events =
    [⟨.handler draftContext, .error (.manualRetryRequested draftRequest)⟩,
      ⟨.publishStatus "t" (some "m") "manual_retrying" " late " draftRequest.statusMeta, .ok ()⟩,
      ⟨.publishTask draftRequest, .ok ()⟩, ⟨.ack, .ok ()⟩] :=
  rfl

def draftSent : Outgoing :=
  match publishTask handoffClient ⟨"0", 0⟩ draftRequest with
  | .ok message => message
  | .error _ => ⟨[], none, fun _ => none, none, none⟩

theorem draftSent_eq : publishTask handoffClient ⟨"0", 0⟩ draftRequest = .ok draftSent := rfl

def reviewMessage : Message :=
  ⟨draftSent.body, draftSent.headers, draftSent.correlationId, some 1, false,
    some "application/json", ⟨"1", 1⟩⟩

def reviewContext : TaskContext :=
  { draftContext with
    consumerName := "reviewer"
    rawPayload := .dict sentTask
    sourceQueueName := "reviews"
    headers := draftSent.headers
    manualRetryCount := 1
    manualRetrySourceConsumer := some "drafter"
    manualRetryReason := some "late" }

def reviewed : Reception handoffCodec where
  consumer := handoffWorker "reviewer"
  message := reviewMessage
  metadata := ⟨draftSent.headers, some "m", some 1, false, some "application/json", 0⟩
  sourceQueueName := "reviews"
  infrastructure := none
  fields := sentTask
  task := ⟨"t", none, some "m", .dict sentTask⟩
  context := reviewContext
  events := (((handoffWorker "reviewer").handleMessage reviewMessage "reviews" none).exec
    granting).1
  result := (((handoffWorker "reviewer").handleMessage reviewMessage "reviews" none).exec
    granting).2
  codec_eq := rfl
  read := rfl
  parsed := rfl
  single := rfl
  valid := rfl
  made := rfl
  run := run_exec granting ((handoffWorker "reviewer").handleMessage reviewMessage "reviews" none)

theorem drafted_handsOver :
    HandsOver (fun _ => False) lateArgs handoffClient drafted reviewed where
  codec_eq := rfl
  published := by
    refine ⟨draftRequest, ⟨"0", 0⟩, draftSent, ?_, fun context answer called _ => ?_, draftSent_eq,
      rfl, fun _ _ => rfl⟩
    · rw [drafted_events]
      exact List.mem_cons_of_mem _ (List.mem_cons_of_mem _ List.mem_cons_self)
    · obtain rfl := drafted.handler_context called
      exact ⟨⟨"0", 0⟩, ⟨"0", 0⟩, rfl⟩

theorem lateArgs_plain : lateArgs.Plain := fun _ _ => List.not_mem_nil

/-- One hop, and one more delivery of what came of it. -/
theorem manual_retry_lineage_drafted :
    reviewed.context.taskId = drafted.context.taskId ∧
      reviewed.context.manualRetryCount = drafted.context.manualRetryCount + 1 ∧
      Carries (fun _ => False) lateArgs handoffClient drafted reviewed := by
  have kept : ∀ key ∈ lineageHeaderNames, ¬False := fun _ _ => id
  have started : Lineage (fun _ => False) drafted [] drafted := .received
  have handed := started.handedOver lateArgs_plain drafted_handsOver
  obtain ⟨-, -, -, carries⟩ := manual_retry_lineage handoffCodec_laws kept started
  obtain ⟨taskId, count, -, -⟩ := manual_retry_lineage handoffCodec_laws kept handed
  exact ⟨taskId, count, carries _ _ _ lateArgs_plain drafted_handsOver⟩

/-- A task without `correlation_id` gets that of its message, the header `task_id` is written anew,
the client renames a field that has the name of one of its aliases, and the reason is stripped. -/
theorem handoff_fills_correlationId :
    HandsOver (fun _ => False) lateArgs handoffClient drafted reviewed ∧ lateArgs.Plain ∧
      drafted.raw.lookup "correlation_id" = none ∧
      reviewed.raw.lookup "correlation_id" = some (.str "m") ∧
      drafted.context.headers "task_id" = some (.str "other") ∧
      reviewed.context.headers "task_id" = some (.str "t") ∧
      drafted.raw.lookup "svc" = some (.str "blue") ∧ reviewed.raw.lookup "svc" = none ∧
      lateArgs.reason = some " late " ∧ reviewed.context.manualRetryReason = some "late" :=
  ⟨drafted_handsOver, lateArgs_plain, rfl, rfl, rfl, rfl, rfl, rfl, rfl, rfl⟩

end Relayna.Consumer
