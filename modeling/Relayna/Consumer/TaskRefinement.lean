import Relayna.Consumer.Refinement
import Relayna.Consumer.Task

/-!
# `TaskConsumer` keeps to the protocol

A message is digestible if the attempt and the headers of the context can be read, the attempt
fits the gauge where there is one, and a batch can be written. The proof goes through the
consumer function by function.
-/
namespace Relayna.Consumer

open Python Contracts Await

variable {p : Plan} {W : Prop} {t : List Event}

namespace TaskConsumer

variable (c : TaskConsumer)

section Calm

variable (d : Delivery)

theorem publishLifecycleStatus_calm (context : TaskContext) (status message : String) :
    Calm (c.publishLifecycleStatus d context status message) := by
  unfold publishLifecycleStatus
  split
  · exact ((Benign.perform rfl).bind fun _ => (c.emitObservation_calm _).any).swallow
  · exact .pure ()

theorem publishDeadLetterStatus_calm (context : TaskContext) (exc : Exc) :
    Calm (c.publishDeadLetterStatus d context exc) := by
  unfold publishDeadLetterStatus
  split
  · exact publishStatusIf_calm _ _ _ _ _ _
  · exact c.publishLifecycleStatus_calm d context _ _

theorem emitTaskResourceSample_calm (task : TaskEnvelope) (context : TaskContext)
    (kind : SampleKind) : Calm (c.emitTaskResourceSample d task context kind) := by
  unfold emitTaskResourceSample
  split
  · refine (Benign.perform rfl).attempt.bind fun sampled => ?_
    split
    · exact (c.emitObservation_calm _).bind fun _ => c.record_calm _
    · exact .pure ()
  · exact .pure ()

theorem beginTask_calm (task : TaskEnvelope) (context : TaskContext) :
    Calm (c.beginTask d task context) :=
  (c.publishLifecycleStatus_calm d context _ _).bind fun _ =>
    c.emitTaskResourceSample_calm d task context .start

theorem finishTask_calm (task : TaskEnvelope) (context : TaskContext)
    (begun ended : Except Exc Unit) : Calm (c.finishTask d task context begun ended) := by
  cases begun with
  | ok _ =>
    exact (c.emitTaskResourceSample_calm d task context .finish).bind fun _ =>
      c.recordOutcome_calm _ ended
  | error _ => exact c.recordOutcome_calm _ ended

end Calm

theorem onHandlerFailed_triple {task : TaskEnvelope} {context : TaskContext} {exc : Exc}
    (hm : p.maxRetries = c.retryPolicy.map (·.maxRetries))
    (wired : W → Provided c.retryPolicy p.retryInfrastructure)
    (hk : p.kept = restated p.metadata.headers) (reflects : context.Reflects p.metadata) :
    Triple (fun t => Reaches p t .failed) (c.onHandlerFailed p.toDelivery task context exc)
      (Verdict p) (fun _ => Broken p W) := by
  unfold onHandlerFailed
  refine .bind (c.emitObservation_calm _).at fun _ => ?_
  rw [reflects.attempt]
  cases hp : c.retryPolicy with
  | none =>
    have unlimited : p.maxRetries = none := by simp [hm, hp]
    by_cases requeue : c.failureAction = .requeue
    all_goals
      simp only [Option.map_none, decideRetry_none, requeue, ↓reduceIte]
      refine .bind (c.publishLifecycleStatus_calm _ context _ _).at fun _ => ?_
      refine .bind (abandon_triple _ unlimited) fun _ => ?_
      exact .bind (c.emitObservation_calm _).settled fun _ => .pure fun _ => id
  | some policy =>
    have limited : p.maxRetries = some policy.maxRetries := by simp [hm, hp]
    have wired' (hw : W) : p.retryInfrastructure.isSome := wired hw (by simp [hp])
    by_cases lt : p.attempt < policy.maxRetries
    · simp only [Option.map_some, decideRetry_of_lt lt]
      refine .bind (c.record_calm _).at fun _ => ?_
      refine .bind (publishRetryCopy_triple c.toSettings limited lt
        (reflects.restates.trans hk.symm) wired') fun _ => ?_
      refine .bind (publishStatusIf_calm _ _ _ _ _ _).at fun _ => ?_
      exact .bind (ack_triple trivial) fun _ => .pure fun _ => id
    · have le := not_lt.mp lt
      simp only [Option.map_some, decideRetry_of_le le]
      refine .bind (c.record_calm _).at fun _ => ?_
      refine .bind (publishDeadLetterCopy_triple c.toSettings
        (fun hi copy => .deadLettered hi limited le copy)
        (reflects.restates.trans hk.symm) fun hw => ⟨wired' hw, by simp [hp]⟩) fun _ => ?_
      refine .bind (c.publishDeadLetterStatus_calm _ context exc).at fun _ => ?_
      exact .bind (ack_triple trivial) fun _ => .pure fun _ => id

/-- Where the handler leaves the delivery when it has returned. -/
def afterHandler : Option ManualRetryRequest → Phase
  | none => .succeeded
  | some request => .handover request

def HandlerRaised (p : Plan) (W : Prop) (exc : Exc) (t : List Event) : Prop :=
  match exc with
  | .manualRetryRequested request => Reaches p t (.handover request)
  | exc => Faulted p W exc t

theorem callHandler_triple (context : TaskContext) :
    Triple (fun t => Reaches p t (.opened [])) (callHandler context)
      (fun request t => Reaches p t (afterHandler request)) (Faulted p W) := by
  have handler : Triple (fun t => Reaches p t (.opened [])) (perform (.handler context))
      (fun request t => Reaches p t (afterHandler request)) (HandlerRaised p W) := by
    refine .perform (fun t request h => ?_) fun t exc h => ?_
    · cases request with
      | none => exact h.snoc (.returned (Or.inl rfl))
      | some request => exact h.snoc .requested
    · cases exc with
      | manualRetryRequested request => exact h.snoc .requestedByRaise
      | cancelled => exact faulted_of_raise h .raised fun _ => rfl
      | _ => exact faulted_of_raise h .raised fun hc => nomatch hc
  refine .tryCatch handler fun exc => ?_
  cases exc with
  | manualRetryRequested request => exact .pure fun _ => id
  | _ => exact .raise fun _ => id

theorem runHandler_triple (context : TaskContext) :
    Triple (fun t => Reaches p t (.opened [])) (c.runHandler p.toDelivery context)
      (fun _ t => Reaches p t .succeeded) (Faulted p W) := by
  refine .bind (callHandler_triple context) fun request => ?_
  cases request with
  | none =>
    exact (c.publishLifecycleStatus_calm _ context _ _).interrupts.conseq (fun _ => id)
      (fun _ _ => id)
      fun _ _ => Or.inl
  | some request =>
    refine .bind ((Benign.perform rfl).swallow.interrupts.conseq (fun _ => id) (fun _ _ => id)
      fun _ _ => Or.inl) fun _ => ?_
    refine .perform (fun t _ h => h.snoc .handedOver) fun t exc h => ?_
    exact faulted_of_raise h .notHandedOver fun _ => rfl

theorem processTask_triple (task : TaskEnvelope) {context : TaskContext}
    (hm : p.maxRetries = c.retryPolicy.map (·.maxRetries))
    (wired : W → Provided c.retryPolicy p.retryInfrastructure)
    (hk : p.kept = restated p.metadata.headers) (reflects : context.Reflects p.metadata) :
    Triple (fun t => Reaches p t (.opened [])) (c.processTask p.toDelivery task context)
      (fun acked t => c.Measurable p.attempt ∧ Verdict p acked t)
      (fun _ => Fails p W (c.Measurable p.attempt)) := by
  unfold processTask
  rw [reflects.attempt]
  refine .bind (recordTaskStarted_triple c.toSettings _) fun _ => .of_and fun fits => ?_
  have start : Triple (fun t => Reaches p t (.opened [])) (c.beginTask p.toDelivery task context)
      (fun _ t => Reaches p t (.opened [])) (Faulted p W) :=
    (c.beginTask_calm _ task context).interrupts.conseq (fun _ => id) (fun _ _ => id)
      fun _ _ => Or.inl
  refine .bind start.attempt fun begun => ?_
  have handled : Triple (Ending (fun _ t => Reaches p t (.opened [])) (Faulted p W) begun)
      (do Proc.ofExcept begun; c.runHandler p.toDelivery context)
      (fun _ t => Reaches p t .succeeded) (Faulted p W) :=
    .bind (.resume begun) fun _ => c.runHandler_triple context
  refine .bind handled.attempt fun ended => ?_
  refine (tryStatement_triple (.pure fun t h => ⟨.succeeded, trivial, h⟩)
      (fun exc => c.onHandlerFailed_triple hm wired hk reflects) (fun _ => Stable.verdict)
      (fun _ _ => Verdict.reaches) fun _ => c.finishTask_calm _ task context begun ended).conseq
      (fun _ => id) (fun _ _ h => ⟨fits, h⟩) fun _ _ h => h.fails

theorem processTaskWithLease_triple (task : TaskEnvelope) {context : TaskContext}
    (hm : p.maxRetries = c.retryPolicy.map (·.maxRetries))
    (wired : W → Provided c.retryPolicy p.retryInfrastructure)
    (hk : p.kept = restated p.metadata.headers) (reflects : context.Reflects p.metadata) :
    Triple (fun t => Reaches p t (.opened [])) (c.processTaskWithLease p.toDelivery task context)
      (fun acked t => Verdict p acked t ∧ Digested (c.Measurable p.attempt) t)
      (fun _ => Fails p W (c.Measurable p.attempt)) := by
  unfold processTaskWithLease
  have process := c.processTask_triple task hm wired hk reflects
  split
  · exact process.conseq (fun _ => id) (fun _ _ h => ⟨h.2, Or.inl h.1⟩) fun _ _ => id
  · rename_i leasing _
    refine .bind (Q := fun granted t => Reaches p t (.opened []) ∧
      (granted = false → Digested (c.Measurable p.attempt) t)) ?_ fun granted => ?_
    · refine .perform (fun t granted h => ⟨h.snoc (.auxiliary rfl), ?_⟩) fun t exc h => ?_
      · rintro rfl
        exact Or.inr ⟨_, List.mem_append_right _ (List.mem_singleton_self _), rfl⟩
      · exact Or.inl ⟨⟨_, h.snoc (.auxiliary rfl)⟩, fun _ => unhealthy_snoc rfl⟩
    cases granted with
    | true =>
      have final (r : Except Exc Bool) : Benign (fun _ => True) (do
          joinHeartbeat
          perform (.releaseLease task.taskId leasing.ownerId)) :=
        Benign.joinHeartbeat.bind fun _ => .perform rfl
      refine .tryFinally (process.conseq (fun _ h => h.1) (fun _ _ => id) fun _ _ => id)
        (fun acked => .of_and fun fits => ?_) fun exc => ?_
      · exact ((final (.ok acked)).keep Stable.verdict fun _ => Verdict.reaches).conseq
          (fun _ => id) (fun _ _ h => ⟨h, Or.inl fits⟩) fun _ _ h => h.fails
      · exact triple_fails ((final (.error exc)).keep Stable.fails fun _ => Fails.reaches)
    | false =>
      refine .conseq (.frame (fun _ => Digested.mono) (.bind (c.emitObservation_calm _).at fun _ =>
        .bind (reject_triple true) fun _ => .pure fun _ => id))
        (fun _ h => ⟨h.1, h.2 rfl⟩) (fun _ _ => id) fun _ _ h => h.1.fails

/-- A message that cannot be handled is settled. -/
theorem refuse_triple {taskId taskType : Option String} {reason : String}
    {exceptionType : Option String} (wired : W → Provided c.retryPolicy p.retryInfrastructure) :
    Triple (fun t => Reaches p t (.opened []))
      (c.refuse p.toDelivery taskId taskType reason exceptionType)
      (fun _ => Settled p) (fun _ => Broken p W) := by
  unfold refuse
  split
  · exact .bind (reject_triple false) fun _ => (c.emitObservation_calm _).settled
  · rename_i policy hp
    refine .bind (publishDeadLetterCopy_triple c.toSettings (fun hi copy => .refused hi copy)
      rfl fun hw => ⟨wired hw (by simp [hp]), by simp [hp]⟩) fun _ => ack_triple trivial

/-- The batch envelope in the body of a message, if it is one. -/
def batchOf (message : Message) : Option BatchTaskEnvelope :=
  match c.codec.parseTransportJson message.body with
  | .error _ => none
  | .ok payload =>
    (asBatch (c.normalize payload)).bind fun fields =>
      c.codec.validateBatch message.fresh
        (.dict (normalizeBatchPayload c.codec.text fields c.aliasConfig))

/-- What is known of a delivery to the consumer. -/
def plan (d : Delivery) : Plan where
  toDelivery := d
  maxRetries := c.retryPolicy.map (·.maxRetries)
  kept := restated d.metadata.headers
  items := (c.batchOf d.message).map fun batch => batch.tasks.zipIdx.map (c.batchItem d batch)

section Batch

variable {c} {d : Delivery} {batch : BatchTaskEnvelope}

theorem batchItem_ok {item : TaskEnvelope × Nat} {op : Op} (h : c.batchItem d batch item = .ok op) :
    ∃ message payload, op = .publishRaw d.sourceQueueName message ∧
      c.codec.dumpTask item.1 = .ok payload ∧ c.codec.toJson payload = .ok message.body ∧
      message.headers "batch_index" = some (.int item.2) := by
  obtain ⟨task, index⟩ := item
  unfold batchItem at h
  cases hd : c.codec.dumpTask task with
  | error e => simp [hd, Except.mapError, bind, Except.bind] at h
  | ok payload =>
    cases hj : c.codec.toJson payload with
    | error e => simp [hd, hj, Except.mapError, bind, Except.bind] at h
    | ok body =>
      simp only [hd, hj, Except.mapError, bind, Except.bind, pure, Except.pure,
        Except.ok.injEq] at h
      exact ⟨_, payload, h.symm, rfl, hj, rfl⟩

/-- Every message of the batch can be written. -/
def Dumps (c : TaskConsumer) (batch : BatchTaskEnvelope) : Prop :=
  ∀ task ∈ batch.tasks, ∃ payload body, c.codec.dumpTask task = .ok payload ∧
    c.codec.toJson payload = .ok body

theorem Dumps.batchItem (h : c.Dumps batch) {item : TaskEnvelope × Nat}
    (hi : item ∈ batch.tasks.zipIdx) : ∃ op, c.batchItem d batch item = .ok op := by
  obtain ⟨payload, body, hd, hj⟩ := h item.1 (List.fst_mem_of_mem_zipIdx hi)
  unfold TaskConsumer.batchItem
  simp only [hd, hj, Except.mapError, bind, Except.bind, pure, Except.pure]
  exact ⟨_, rfl⟩

/-- A batch that is taken apart can be written. -/
def Expandable (c : TaskConsumer) (message : Message) : Prop :=
  ∀ batch, c.batchOf message = some batch → c.mixedTaskTypes batch = false → c.Dumps batch

theorem plan_items (hb : c.batchOf d.message = some batch) :
    (c.plan d).items = some (batch.tasks.zipIdx.map (c.batchItem d batch)) := by
  simp [plan, hb]

theorem batch_keeps (hb : c.batchOf d.message = some batch) :
    Keeps (c.batchItem d batch) batch.tasks.zipIdx fun published t =>
      Reaches (c.plan d) t (.opened published) where
  stable _ := Stable.reaches
  ok := by
    rintro published t item op a hi hop h
    obtain ⟨message, payload, rfl, -⟩ := batchItem_ok hop
    exact h.snoc (.expanded (plan_items hb) (List.mem_map.mpr ⟨item, hi, hop⟩))
  error := by
    rintro published t item op exc hi hop h
    obtain ⟨message, payload, rfl, -⟩ := batchItem_ok hop
    exact ⟨h.snoc .notPublished, rfl⟩

/-- `map_bounded` over the batch. -/
theorem expand_triple (hb : c.batchOf d.message = some batch)
    (single : c.mixedTaskTypes batch = false) :
    Triple (fun t => Reaches (c.plan d) t (.opened []))
      (mapBounded (c.batchItem d batch) batch.tasks.zipIdx c.batchPublishConcurrency)
      (fun _ t => c.Expandable d.message ∧
        ∃ published, (Phase.opened published).Ackable (c.plan d) ∧
          Reaches (c.plan d) t (.opened published))
      (fun _ => Fails (c.plan d) W (c.Expandable d.message)) := by
  refine (mapBounded_triple (batch_keeps hb) c.one_le_batchPublishConcurrency).conseq
    (fun _ => id) (fun _ t h => ?_) fun _ t h => ?_
  · obtain ⟨published, reaches, all⟩ := h
    refine ⟨?_, published, ⟨_, plan_items hb, fun x hx => ?_⟩, reaches⟩
    · rintro batch' hb' - task ht
      obtain rfl : batch = batch' := Option.some.inj (hb.symm.trans hb')
      obtain ⟨index, hindex⟩ := List.mem_iff_getElem?.mp ht
      obtain ⟨op, -, hop⟩ := all (task, index) (List.mem_zipIdx_iff_getElem?.mpr hindex)
      obtain ⟨message, payload, -, hd, hj, -⟩ := batchItem_ok hop
      exact ⟨payload, _, hd, hj⟩
    · obtain ⟨item, hi, rfl⟩ := List.mem_map.mp hx
      exact all item hi
  · obtain ⟨⟨published, reaches⟩, bad | ⟨item, hi, unprepared⟩⟩ := h
    · exact Or.inl ⟨⟨_, reaches⟩, fun _ => bad⟩
    · refine Or.inr ⟨⟨published, reaches⟩, fun expandable => ?_⟩
      obtain ⟨op, hop⟩ := (expandable batch hb single).batchItem hi
      exact unprepared op hop

theorem handleBatchMessage_triple {fields : Fields Value}
    (hb : c.batchOf d.message = c.codec.validateBatch d.message.fresh
      (.dict (normalizeBatchPayload c.codec.text fields c.aliasConfig)))
    (hp : c.retryPolicy.isSome) (wired : W → Provided c.retryPolicy d.retryInfrastructure) :
    Triple (fun t => Reaches (c.plan d) t (.opened [])) (c.handleBatchMessage d fields)
      (fun _ t => Settled (c.plan d) t ∧ c.Expandable d.message)
      (fun _ => Fails (c.plan d) W (c.Expandable d.message)) := by
  have refuse {reason : String} {exceptionType : Option String} : Triple
      (fun t => Reaches (c.plan d) t (.opened []))
      (do
        c.publishDeadLetter d none d.metadata.retryAttempt reason exceptionType none []
        ack)
      (fun _ => Settled (c.plan d)) (fun _ => Broken (c.plan d) W) :=
    .bind (publishDeadLetterCopy_triple (p := c.plan d) c.toSettings
      (fun hi copy => .refused hi copy) rfl fun hw => ⟨wired hw hp, hp⟩) fun _ =>
        ack_triple trivial
  unfold handleBatchMessage
  cases hv : c.codec.validateBatch d.message.fresh
    (.dict (normalizeBatchPayload c.codec.text fields c.aliasConfig)) with
  | none =>
    refine refuse.conseq (fun _ => id) (fun _ _ h => ⟨h, ?_⟩) fun _ _ h => h.fails
    intro batch h'
    simp [hb, hv] at h'
  | some batch =>
    rw [hv] at hb
    cases mixed : c.mixedTaskTypes batch with
    | true =>
      simp only [mixed, ↓reduceIte]
      refine refuse.conseq (fun _ => id) (fun _ _ h => ⟨h, ?_⟩) fun _ _ h => h.fails
      intro batch' h' single
      obtain rfl : batch = batch' := Option.some.inj (hb.symm.trans h')
      simp [mixed] at single
    | false =>
      simp only [mixed]
      refine .bind (expand_triple hb mixed) fun _ => .of_and fun expandable =>
        .of_exists fun published => .of_and fun ackable => ?_
      refine .bind (triple_fails (ack_triple ackable)) fun _ => ?_
      exact (triple_fails (c.emitObservation_calm _).settled).conseq (fun _ => id)
        (fun _ _ h => ⟨h, expandable⟩) fun _ _ => id

end Batch

/-- The headers that are read into the context. -/
def Legible (headers : Dict) : Prop :=
  Readable headers "batch_index" ∧ Readable headers "batch_size" ∧
    Readable headers "x-relayna-manual-retry-count"

theorem makeTaskContext_ok {d : Delivery} {task : TaskEnvelope} {payload : Value}
    {context : TaskContext} (h : c.makeTaskContext d task payload = .ok context) :
    context.Reflects d.metadata ∧ Legible d.metadata.headers := by
  unfold makeTaskContext manualRetryCount at h
  cases hi : headerInt d.metadata.headers "batch_index" with
  | error e => simp [hi, bind, Except.bind] at h
  | ok i =>
    cases hs : headerInt d.metadata.headers "batch_size" with
    | error e => simp [hi, hs, bind, Except.bind] at h
    | ok n =>
      cases hc : headerInt d.metadata.headers "x-relayna-manual-retry-count" with
      | error e => simp [hi, hs, hc, bind, Except.bind, Except.map] at h
      | ok m =>
        simp only [hi, hs, hc, bind, Except.bind, Except.map, pure, Except.pure,
          Except.ok.injEq] at h
        refine ⟨h ▸ ⟨rfl, rfl, hi, hs⟩, ?_, ?_, ?_⟩
        · exact (headerInt_ok_iff _ _).mp ⟨i, hi⟩
        · exact (headerInt_ok_iff _ _).mp ⟨n, hs⟩
        · exact (headerInt_ok_iff _ _).mp ⟨m, hc⟩

theorem makeTaskContext_of_legible {d : Delivery} (task : TaskEnvelope) (payload : Value)
    (h : Legible d.metadata.headers) :
    ∃ context, c.makeTaskContext d task payload = .ok context := by
  obtain ⟨i, hi⟩ := (headerInt_ok_iff _ _).mpr h.1
  obtain ⟨n, hs⟩ := (headerInt_ok_iff _ _).mpr h.2.1
  obtain ⟨m, hc⟩ := (headerInt_ok_iff _ _).mpr h.2.2
  simp only [makeTaskContext, manualRetryCount, hi, hs, hc, bind, Except.bind, Except.map, pure,
    Except.pure]
  exact ⟨_, rfl⟩

/-- What makes a message digestible whose attempt has been read. -/
def DigestibleAt (message : Message) (attempt : Int) : Prop :=
  match c.codec.parseTransportJson message.body with
  | .error _ => True
  | .ok payload =>
    match asBatch (c.normalize payload) with
    | some _ => c.retryPolicy.isSome → c.Expandable message
    | none => ∀ task, c.codec.validateTask message.fresh (c.normalize payload) = some task →
        Legible message.headers ∧ c.Measurable attempt

variable {c} {d : Delivery}

theorem handleSingleMessage_triple {payload : Value}
    (hd : d.metadata.headers = d.message.headers)
    (wired : W → Provided c.retryPolicy d.retryInfrastructure) :
    Triple (fun t => Reaches (c.plan d) t (.opened [])) (c.handleSingleMessage d payload)
      (fun _ t => Settled (c.plan d) t ∧
        Digested (∀ task, c.codec.validateTask d.message.fresh payload = some task →
          Legible d.message.headers ∧ c.Measurable d.metadata.retryAttempt) t)
      (fun _ => Fails (c.plan d) W
        (∀ task, c.codec.validateTask d.message.fresh payload = some task →
          Legible d.message.headers ∧ c.Measurable d.metadata.retryAttempt)) := by
  unfold handleSingleMessage
  cases hv : c.codec.validateTask d.message.fresh payload with
  | none =>
    exact (c.refuse_triple (p := c.plan d) wired).conseq (fun _ => id)
      (fun _ _ h => ⟨h, Or.inl fun _ h => nomatch h⟩) fun _ _ h => h.fails
  | some task =>
    refine .bind (Q := fun context t => (context.Reflects d.metadata ∧
      Legible d.message.headers) ∧ Reaches (c.plan d) t (.opened [])) ?_ fun context => ?_
    · refine .ofExcept (fun context t hc h => ⟨hd ▸ c.makeTaskContext_ok hc, h⟩)
        fun exc t he h => ?_
      refine Or.inr ⟨⟨_, h⟩, fun digestible => ?_⟩
      obtain ⟨context, hc⟩ := c.makeTaskContext_of_legible (d := d) task payload
        (hd ▸ (digestible task rfl).1)
      simp [hc] at he
    refine .of_and fun ⟨reflects, legible⟩ => ?_
    refine .bind ((c.processTaskWithLease_triple task (p := c.plan d) rfl wired rfl reflects).conseq
      (fun _ => id) (fun _ _ => id) fun _ t h => h.mono fun digestible => ?_) fun acked => ?_
    · exact (digestible task rfl).2
    have settle : Triple (Verdict (c.plan d) acked)
        (if acked then do
          ack
          c.emitObservation (.taskMessageAcked
            (c.subject d task.taskId context.correlationId task.taskType))
        else pure ())
        (fun _ => Settled (c.plan d)) (fun _ => Broken (c.plan d) W) := by
      cases acked with
      | true => exact .bind ack_of_verdict fun _ => (c.emitObservation_calm _).settled
      | false => exact .pure fun _ => id
    refine (settle.frame fun _ => Digested.mono).conseq (fun _ => id) (fun _ t h => ?_)
      fun _ _ h => h.1.fails
    refine ⟨h.1, h.2.imp fun fits task' h' => ⟨legible, fits⟩⟩

theorem handleMessageImpl_triple (hd : d.metadata.headers = d.message.headers)
    (wired : W → Provided c.retryPolicy d.retryInfrastructure) :
    Triple (fun t => Reaches (c.plan d) t (.opened [])) (c.handleMessageImpl d)
      (fun _ t => Settled (c.plan d) t ∧
        Digested (c.DigestibleAt d.message d.metadata.retryAttempt) t)
      (fun _ => Fails (c.plan d) W (c.DigestibleAt d.message d.metadata.retryAttempt)) := by
  unfold handleMessageImpl
  cases hj : c.codec.parseTransportJson d.message.body with
  | error text =>
    refine (c.refuse_triple (p := c.plan d) wired).conseq (fun _ => id) (fun _ _ h => ⟨h, ?_⟩)
      fun _ _ h => h.fails
    exact Or.inl (by simp [DigestibleAt, hj])
  | ok payload =>
    refine .bind (triple_fails (c.emitObservation_calm _).at) fun _ => ?_
    cases hb : asBatch (c.normalize payload) with
    | none =>
      have digestible : c.DigestibleAt d.message d.metadata.retryAttempt =
          ∀ task, c.codec.validateTask d.message.fresh (c.normalize payload) = some task →
            Legible d.message.headers ∧ c.Measurable d.metadata.retryAttempt := by
        simp [DigestibleAt, hj, hb]
      rw [digestible]
      exact handleSingleMessage_triple hd wired
    | some fields =>
      have digestible : c.DigestibleAt d.message d.metadata.retryAttempt =
          (c.retryPolicy.isSome → c.Expandable d.message) := by
        simp [DigestibleAt, hj, hb]
      rw [digestible]
      cases hp : c.retryPolicy with
      | none =>
        refine .bind (triple_fails (reject_triple false)) fun _ => ?_
        exact (c.emitObservation_calm _).settled.conseq (fun _ => id)
          (fun _ _ h => ⟨h, Or.inl fun h => by simp at h⟩) fun _ _ h => h.fails
      | some policy =>
        have hv : c.batchOf d.message = c.codec.validateBatch d.message.fresh
            (.dict (normalizeBatchPayload c.codec.text fields c.aliasConfig)) := by
          simp [batchOf, hj, hb]
        exact (handleBatchMessage_triple hv (by simp [hp]) wired).conseq (fun _ => id)
          (fun _ _ h => ⟨h.1, Or.inl fun _ => h.2⟩) fun _ _ h => h.mono fun h => h rfl

end TaskConsumer

end Relayna.Consumer
