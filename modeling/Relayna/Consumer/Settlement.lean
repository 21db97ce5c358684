import Relayna.Consumer.StageRefinement
import Relayna.Contracts.Tabulated

/-!
# No consumer loses a message

Whichever operations succeed and whichever raise, a message is settled at most once, and it is
acked only after something has become of it.
-/
namespace Relayna.Consumer

open Python Contracts Await

/-- What has become of a message before it is acked. -/
inductive Accounted (c : AnyConsumer) (message : Message) (sourceQueueName : String)
    (retryInfrastructure : Option RetryInfrastructure) (before : List Event) : Prop where
  /-- The handler returned, and there is no manual retry to be published. -/
  | returned {context : TaskContext} {request : Option ManualRetryRequest} :
      (⟨.handler context, .ok request⟩ : Event) ∈ before →
      request = none ∨ context.isTaskContext = false →
      Accounted c message sourceQueueName retryInfrastructure before
  | stageReturned {context : WorkflowContext} {timeout : Option Python.Float} :
      (⟨.workflowHandler context timeout, .ok ()⟩ : Event) ∈ before →
      Accounted c message sourceQueueName retryInfrastructure before
  /-- The manual retry that the handler asked for, by a return or a raise, is published. -/
  | handedOver {context : TaskContext} {request : ManualRetryRequest}
      {answer : Except Exc (Option ManualRetryRequest)} :
      (⟨.handler context, answer⟩ : Event) ∈ before →
      answer = .ok (some request) ∨ answer = .error (.manualRetryRequested request) →
      (⟨.publishTask request, .ok ()⟩ : Event) ∈ before →
      Accounted c message sourceQueueName retryInfrastructure before
  | copied {infrastructure : RetryInfrastructure} {queueName : String} {copy : Outgoing} :
      retryInfrastructure = some infrastructure →
      queueName = infrastructure.retryQueueName ∨ queueName = infrastructure.deadLetterQueueName →
      copy.body = message.body → (⟨.publishRaw queueName copy, .ok ()⟩ : Event) ∈ before →
      Accounted c message sourceQueueName retryInfrastructure before
  /-- Every task of the batch is in the source queue, under its index. -/
  | expanded {consumer : TaskConsumer} {batch : BatchTaskEnvelope} :
      c = .task consumer → consumer.batchOf message = some batch →
      (∀ item ∈ batch.tasks.zipIdx, ∃ copy payload,
        consumer.codec.dumpTask item.1 = .ok payload ∧
          consumer.codec.toJson payload = .ok copy.body ∧
          copy.headers "batch_index" = some (.int item.2) ∧
          (⟨.publishRaw sourceQueueName copy, .ok ()⟩ : Event) ∈ before) →
      Accounted c message sourceQueueName retryInfrastructure before

section

variable {c : AnyConsumer} {message : Message} {sourceQueueName : String}
  {retryInfrastructure : Option RetryInfrastructure}

/-- Only a task consumer expands batches, and its items are the tasks of the batch. -/
theorem accounted_of_items {d : Delivery} {items : List (Except Exc Op)} {before : List Event}
    (hitems : (c.plan d).items = some items)
    (all : ∀ item ∈ items, ∃ copy, item = .ok (.publishRaw d.sourceQueueName copy) ∧
      (⟨.publishRaw d.sourceQueueName copy, .ok ()⟩ : Event) ∈ before) :
    Accounted c d.message d.sourceQueueName d.retryInfrastructure before := by
  cases c with
  | task consumer =>
    obtain ⟨batch, hb, rfl⟩ := Option.map_eq_some_iff.mp hitems
    refine .expanded rfl hb fun item hi => ?_
    obtain ⟨copy, prepared, published⟩ := all _ (List.mem_map_of_mem hi)
    obtain ⟨copy', payload, hop, dumped, written, index⟩ := TaskConsumer.batchItem_ok prepared
    obtain ⟨-, rfl⟩ := Op.publishRaw.inj hop
    exact ⟨copy, payload, dumped, written, index, published⟩
  | aggregation consumer => exact nomatch hitems
  | workflow consumer => exact nomatch hitems

theorem Disposed.accounted {d : Delivery} {before : List Event}
    (h : Disposed (c.plan d) before) :
    Accounted c d.message d.sourceQueueName d.retryInfrastructure before := by
  have hd : (c.plan d).toDelivery = d := c.plan_toDelivery d
  cases h with
  | returned ran request => exact .returned ran request
  | stageReturned ran => exact .stageReturned ran
  | handedOver ran request published => exact .handedOver ran request published
  | copied hi queue body published =>
    rw [hd] at hi body
    exact .copied hi queue body published
  | expanded hitems all =>
    rw [hd] at all
    exact accounted_of_items hitems all

/-- What the protocol says of a run, whatever its ending. -/
theorem AnyConsumer.handle_reaches {es : List Event} {res : Except Exc Unit}
    (run : Run (c.handle message sourceQueueName retryInfrastructure) es res) :
    es = [] ∨ ∃ metadata phase, extractMessageMetadata message = .ok metadata ∧
      Reaches (c.plan ⟨message, metadata, sourceQueueName, retryInfrastructure⟩) es phase := by
  obtain ⟨_, _, rfl, _⟩ | ⟨metadata, hm, ending⟩ := handle_run run
  · exact Or.inl rfl
  · cases res with
    | ok _ =>
      obtain ⟨⟨before, reaches⟩, _⟩ := ending
      exact Or.inr ⟨metadata, _, hm, reaches⟩
    | error exc =>
      obtain ⟨phase, reaches⟩ := Fails.reaches ending
      exact Or.inr ⟨metadata, phase, hm, reaches⟩

theorem AnyConsumer.no_message_lost {es : List Event} {res : Except Exc Unit}
    (run : Run (c.handle message sourceQueueName retryInfrastructure) es res) :
    es.countP (·.op.settles) ≤ 1 ∧
      ∀ before answer after, es = before ++ ⟨.ack, answer⟩ :: after →
        Accounted c message sourceQueueName retryInfrastructure before := by
  obtain rfl | ⟨metadata, phase, -, reaches⟩ := handle_reaches run
  · exact ⟨by simp, fun before answer after h => by simp at h⟩
  · refine ⟨?_, fun before answer after split => (reaches.disposed_of_ack split).accounted⟩
    rw [reaches.settlements]
    cases phase <;> simp [Phase.settlements]

end

def statusBody : Bytes := ascii "\x7b\"task_id\":\"t\",\"status\":\"done\"\x7d"

def statusCodec : Codec :=
  { Codec.tabulated [(statusBody, .dict [("task_id", .str "t"), ("status", .str "done")])] with
    validateTask := fun _ payload =>
      match payload.get "task_id" with
      | some (.str taskId) => some ⟨taskId, none, none, payload⟩
      | _ => none
    validateStatus := fun _ payload =>
      match payload.get "task_id" with
      | some (.str taskId) => some ⟨taskId, none, []⟩
      | _ => none
    toJson := fun _ => .ok statusBody }

def statusConsumer (maxRetries : Int) : AnyConsumer :=
  .aggregation
    { codec := statusCodec
      consumerName := "aggregator"
      retryPolicy := some { maxRetries }
      retryStatuses := {}
      aliasConfig := none
      observationSink := false
      dlqStore := false
      metrics := false }

def statusMessage (body : Bytes) (headers : Dict) : Message :=
  ⟨body, headers, none, some 1, false, some "application/json", ⟨"0", 0⟩⟩

def statusQueues : RetryInfrastructure := ⟨"status", "status.retry", "status.dlq"⟩

/-- A body that is not JSON: its copy is in the dead-letter queue before the ack. -/
theorem AnyConsumer.no_message_lost_malformed :
    ∃ copy, (((statusConsumer 3).handle (statusMessage [] fun _ => none) "status"
        (some statusQueues)).exec granting).1 =
          [⟨.publishRaw "status.dlq" copy, .ok ()⟩] ++ ⟨.ack, .ok ()⟩ :: [] ∧
      Accounted (statusConsumer 3) (statusMessage [] fun _ => none) "status" (some statusQueues)
        [⟨.publishRaw "status.dlq" copy, .ok ()⟩] :=
  ⟨_, rfl, (no_message_lost (run_exec granting _)).2 _ (.ok ()) [] rfl⟩

end Relayna.Consumer
