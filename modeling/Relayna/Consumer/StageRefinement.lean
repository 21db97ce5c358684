import Relayna.Consumer.TaskRefinement
import Relayna.Consumer.Workflow

/-!
# `AggregationConsumer` and `WorkflowConsumer` keep to the protocol

The same for the other two consumers, and at the end one statement for all three.
-/
namespace Relayna.Consumer

open Python Contracts Await

variable {p : Plan} {W : Prop} {t : List Event}

namespace AggregationConsumer

variable (c : AggregationConsumer)

theorem onHandlerFailed_triple {event : StatusEventEnvelope} {context : TaskContext} {exc : Exc}
    (hm : p.maxRetries = c.retryPolicy.map (·.maxRetries)) (hk : p.kept = p.metadata.headers)
    (wired : W → Provided c.retryPolicy p.retryInfrastructure) :
    Triple (fun t => Reaches p t .failed) (c.onHandlerFailed p.toDelivery event context exc)
      (Verdict p) (fun _ => Broken p W) := by
  unfold onHandlerFailed
  refine .bind (c.emitObservation_calm _).at fun _ => ?_
  cases hp : c.retryPolicy with
  | none =>
    have unlimited : p.maxRetries = none := by simp [hm, hp]
    exact .bind (abandon_triple false unlimited) fun _ => .pure fun _ => id
  | some policy =>
    have limited : p.maxRetries = some policy.maxRetries := by simp [hm, hp]
    have wired' (hw : W) : p.retryInfrastructure.isSome := wired hw (by simp [hp])
    by_cases lt : p.attempt < policy.maxRetries
    · simp only [lt, ↓reduceIte]
      refine .bind (c.record_calm _).at fun _ => ?_
      refine .bind (publishRetryCopy_triple c.toSettings limited lt hk.symm wired') fun _ => ?_
      refine .bind (publishStatusIf_calm _ _ _ _ _ _).at fun _ => ?_
      exact .bind (ack_triple trivial) fun _ => .pure fun _ => id
    · have le := not_lt.mp lt
      simp only [lt, ↓reduceIte]
      refine .bind (c.record_calm _).at fun _ => ?_
      refine .bind (publishDeadLetterCopy_triple c.toSettings
        (fun hi copy => .deadLettered hi limited le copy) hk.symm
        fun hw => ⟨wired' hw, by simp [hp]⟩) fun _ => ?_
      refine .bind (publishStatusIf_calm _ _ _ _ _ _).at fun _ => ?_
      exact .bind (ack_triple trivial) fun _ => .pure fun _ => id

theorem processEvent_triple {event : StatusEventEnvelope} {context : TaskContext}
    (hm : p.maxRetries = c.retryPolicy.map (·.maxRetries)) (hk : p.kept = p.metadata.headers)
    (wired : W → Provided c.retryPolicy p.retryInfrastructure)
    (hc : context.isTaskContext = false) :
    Triple (fun t => Reaches p t (.opened [])) (c.processEvent p.toDelivery event context)
      (Verdict p) (fun _ => Broken p W) := by
  refine .bind (.attempt_perform (Q := Ended p W) fun t answer h => ?_) fun ended => ?_
  · cases answer with
    | ok request => exact h.snoc (.returned (Or.inr hc))
    | error exc =>
      exact faulted_of_raise h .raised fun hc => by subst hc; rfl
  · exact tryStatement_triple (.pure fun t h => ⟨.succeeded, trivial, h⟩)
      (fun exc => c.onHandlerFailed_triple hm hk wired) (fun _ => Stable.verdict)
      (fun _ _ => Verdict.reaches) fun _ => c.recordOutcome_calm _ ended

theorem refuse_triple {taskId : Option String} {reason : String} {exceptionType : Option String}
    (wired : W → Provided c.retryPolicy p.retryInfrastructure) :
    Triple (fun t => Reaches p t (.opened [])) (c.refuse p.toDelivery taskId reason exceptionType)
      (fun _ => Settled p) (fun _ => Broken p W) := by
  unfold refuse
  split
  · exact reject_triple false
  · rename_i policy hp
    refine .bind (publishDeadLetterCopy_triple c.toSettings (fun hi copy => .refused hi copy)
      rfl fun hw => ⟨wired hw (by simp [hp]), by simp [hp]⟩) fun _ => ack_triple trivial

/-- What is known of a delivery to the consumer. -/
def plan (d : Delivery) : Plan where
  toDelivery := d
  maxRetries := c.retryPolicy.map (·.maxRetries)
  kept := d.metadata.headers
  items := none

/-- The values that are read into the context: a header and the lineage in the status. -/
def Legible (headers : Dict) (event : StatusEventEnvelope) : Prop :=
  Readable headers "x-relayna-manual-retry-count" ∧
    ∀ fields count, event.statusMeta.lookup "manual_retry" = some (.dict fields) →
      fields.lookup "count" = some count → count.isInfinite = false

/-- What makes a message digestible whose attempt has been read. -/
def DigestibleAt (message : Message) (attempt : Int) : Prop :=
  match c.codec.parseTransportJson message.body with
  | .error _ => True
  | .ok payload =>
    ∀ event, c.codec.validateStatus message.fresh (c.normalize payload) = some event →
      Legible message.headers event ∧ c.Measurable attempt

theorem manualRetryMeta_ok_iff (text : Text) (statusMeta : Fields Value) :
    (∃ m, manualRetryMetaFromStatus text statusMeta = .ok m) ↔
      ∀ fields count, statusMeta.lookup "manual_retry" = some (.dict fields) →
        fields.lookup "count" = some count → count.isInfinite = false := by
  unfold manualRetryMetaFromStatus coerceNonNegativeInt
  split
  · rename_i fields hf
    rw [map_ok_iff, map_ok_iff, caughtInt_ok_iff]
    have lookup {fields' : Fields Value} (hf' : statusMeta.lookup "manual_retry" =
        some (.dict fields')) : fields = fields' := by
      simpa using hf.symm.trans hf'
    cases hc : fields.lookup "count" with
    | none =>
      refine ⟨fun _ fields' count hf' hc' => ?_, fun _ => rfl⟩
      obtain rfl := lookup hf'
      exact nomatch hc.symm.trans hc'
    | some count =>
      refine ⟨fun h fields' count' hf' hc' => ?_, fun h => h fields count hf hc⟩
      obtain rfl := lookup hf'
      obtain rfl := Option.some.inj (hc.symm.trans hc')
      exact h
  · rename_i other
    constructor
    · rintro - fields count hf
      exact (other fields hf).elim
    · exact fun _ => ⟨_, rfl⟩

theorem makeContext_ok {d : Delivery} {event : StatusEventEnvelope} {payload : Value}
    {manualRetry : ManualRetryMeta} {context : TaskContext}
    (h : c.makeContext d event payload manualRetry = .ok context) :
    context.isTaskContext = false ∧
      Readable d.metadata.headers "x-relayna-manual-retry-count" := by
  unfold makeContext manualRetryCount at h
  cases hc : headerInt d.metadata.headers "x-relayna-manual-retry-count" with
  | error e => simp [hc, bind, Except.bind, Except.map] at h
  | ok m =>
    simp only [hc, bind, Except.bind, Except.map, pure, Except.pure, Except.ok.injEq] at h
    exact ⟨h ▸ rfl, (headerInt_ok_iff _ _).mp ⟨m, hc⟩⟩

theorem makeContext_of_readable {d : Delivery} (event : StatusEventEnvelope) (payload : Value)
    (manualRetry : ManualRetryMeta)
    (h : Readable d.metadata.headers "x-relayna-manual-retry-count") :
    ∃ context, c.makeContext d event payload manualRetry = .ok context := by
  obtain ⟨m, hc⟩ := (headerInt_ok_iff _ _).mpr h
  simp only [makeContext, manualRetryCount, hc, bind, Except.bind, Except.map, pure, Except.pure]
  exact ⟨_, rfl⟩

variable {c} {d : Delivery}

/-- What the context of an event is made of. -/
theorem makeContext_triple {event : StatusEventEnvelope} {payload : Value}
    (manualRetry : ManualRetryMeta) (hd : d.metadata.headers = d.message.headers)
    (lineage : ∃ m, manualRetryMetaFromStatus c.codec.text event.statusMeta = .ok m) {D : Prop}
    (weaker : D → Legible d.message.headers event) :
    Triple (fun t => Reaches (c.plan d) t (.opened []))
      (Proc.ofExcept (c.makeContext d event payload manualRetry))
      (fun context t => (context.isTaskContext = false ∧ Legible d.message.headers event) ∧
        Reaches (c.plan d) t (.opened []))
      (fun _ => Fails (c.plan d) W D) := by
  refine .ofExcept (fun context t hc h => ⟨?_, h⟩) fun exc t he h => ?_
  · obtain ⟨notTask, readable⟩ := c.makeContext_ok hc
    exact ⟨notTask, hd ▸ readable, (manualRetryMeta_ok_iff _ _).mp lineage⟩
  · refine Or.inr ⟨⟨_, h⟩, fun digestible => ?_⟩
    obtain ⟨context, hc⟩ := c.makeContext_of_readable (d := d) event payload manualRetry
      (hd ▸ (weaker digestible).1)
    simp [hc] at he

theorem manualRetryMeta_triple {event : StatusEventEnvelope} {D : Prop}
    (weaker : D → Legible d.message.headers event) :
    Triple (fun t => Reaches p t (.opened []))
      (Proc.ofExcept (manualRetryMetaFromStatus c.codec.text event.statusMeta))
      (fun _ t => (∃ m, manualRetryMetaFromStatus c.codec.text event.statusMeta = .ok m) ∧
        Reaches p t (.opened []))
      (fun _ => Fails p W D) := by
  refine .ofExcept (fun m t hm h => ⟨⟨m, hm⟩, h⟩) fun exc t he h => ?_
  refine Or.inr ⟨⟨_, h⟩, fun digestible => ?_⟩
  obtain ⟨m, hm⟩ := (manualRetryMeta_ok_iff c.codec.text event.statusMeta).mpr
    (weaker digestible).2
  simp [hm] at he

theorem handleEvent_triple {event : StatusEventEnvelope} {payload : Value}
    (hd : d.metadata.headers = d.message.headers)
    (wired : W → Provided c.retryPolicy d.retryInfrastructure) :
    Triple (fun t => Reaches (c.plan d) t (.opened [])) (c.handleEvent d event payload)
      (fun _ t => Settled (c.plan d) t ∧
        (Legible d.message.headers event ∧ c.Measurable d.metadata.retryAttempt))
      (fun _ => Fails (c.plan d) W
        (Legible d.message.headers event ∧ c.Measurable d.metadata.retryAttempt)) := by
  refine .bind ((recordTaskStarted_triple (p := c.plan d) c.toSettings _).conseq (fun _ => id)
    (fun _ _ => id) fun _ t h => h.mono And.right) fun _ => .of_and fun fits => ?_
  refine .bind (manualRetryMeta_triple And.left) fun manualRetry => .of_and fun lineage => ?_
  refine .bind (triple_fails (c.emitObservation_calm _).at) fun _ => ?_
  refine .bind (makeContext_triple manualRetry hd lineage And.left) fun context =>
    .of_and fun ⟨hc, legible⟩ => ?_
  refine .bind (triple_fails (c.processEvent_triple (p := c.plan d) rfl rfl wired hc))
    fun acked => ?_
  cases acked with
  | true =>
    refine .bind (triple_fails ack_of_verdict) fun _ => ?_
    exact (c.emitObservation_calm _).settled.conseq (fun _ => id)
      (fun _ _ h => ⟨h, legible, fits⟩) fun _ _ h => h.fails
  | false => exact .pure fun t h => ⟨h, legible, fits⟩

theorem handleMessageImpl_triple (hd : d.metadata.headers = d.message.headers)
    (wired : W → Provided c.retryPolicy d.retryInfrastructure) :
    Triple (fun t => Reaches (c.plan d) t (.opened [])) (c.handleMessageImpl d)
      (fun _ t => Settled (c.plan d) t ∧
        Digested (c.DigestibleAt d.message d.metadata.retryAttempt) t)
      (fun _ => Fails (c.plan d) W (c.DigestibleAt d.message d.metadata.retryAttempt)) := by
  unfold handleMessageImpl DigestibleAt
  cases c.codec.parseTransportJson d.message.body with
  | error text =>
    exact (c.refuse_triple (p := c.plan d) wired).conseq (fun _ => id)
      (fun _ _ h => ⟨h, Or.inl trivial⟩) fun _ _ h => h.fails
  | ok payload =>
    dsimp only
    cases c.codec.validateStatus d.message.fresh (c.normalize payload) with
    | none =>
      exact (c.refuse_triple (p := c.plan d) wired).conseq (fun _ => id)
        (fun _ _ h => ⟨h, Or.inl fun _ h => nomatch h⟩) fun _ _ h => h.fails
    | some event =>
      refine (handleEvent_triple hd wired).conseq (fun _ => id) (fun _ _ h => ⟨h.1, Or.inl ?_⟩)
        fun _ _ h => h.mono fun digestible => digestible event rfl
      rintro event' he
      exact Option.some.inj he ▸ h.2

end AggregationConsumer

namespace WorkflowConsumer

variable (c : WorkflowConsumer)

theorem cleanupDedupState_calm (acquired : Bool) (message : WorkflowEnvelope) :
    Calm (c.cleanupDedupState acquired message) := by
  unfold cleanupDedupState
  split
  · exact (Benign.perform rfl).swallow.bind fun _ => (Benign.perform rfl).swallow
  · exact .pure ()

theorem releaseStageLease_benign (message : WorkflowEnvelope) :
    Benign (fun _ => True) (c.releaseStageLease message) := by
  unfold releaseStageLease
  split
  · exact .pure ()
  · exact Benign.joinHeartbeat.bind fun _ => .perform rfl

/-- What `run_forever` provides. -/
def Wired (retryInfrastructure : Option RetryInfrastructure) : Prop :=
  Provided c.effectiveRetryPolicy retryInfrastructure ∧
    (c.stage.dedupKeyFields ≠ [] → c.contractStore = true)

theorem onHandlerFailed_triple {message : WorkflowEnvelope} {context : WorkflowContext} {exc : Exc}
    (hm : p.maxRetries = c.effectiveRetryPolicy.map (·.maxRetries))
    (hk : p.kept = p.metadata.headers)
    (wired : W → c.Wired p.retryInfrastructure) (ha : context.retryAttempt = p.attempt) :
    Triple (fun t => Reaches p t .failed) (c.onHandlerFailed p.toDelivery message context exc)
      (Verdict p) (fun _ => Broken p W) := by
  unfold onHandlerFailed
  refine .bind (c.emitObservation_calm _).at fun _ => ?_
  rw [ha]
  cases hp : c.effectiveRetryPolicy with
  | none =>
    have unlimited : p.maxRetries = none := by simp [hm, hp]
    simp only [Option.map_none, decideRetry_none, reduceCtorEq, ↓reduceIte]
    exact .bind (abandon_triple false unlimited) fun _ => .pure fun _ => id
  | some policy =>
    have limited : p.maxRetries = some policy.maxRetries := by simp [hm, hp]
    have wired' (hw : W) : p.retryInfrastructure.isSome := (wired hw).1 (by simp [hp])
    by_cases lt : p.attempt < policy.maxRetries
    · simp only [Option.map_some, decideRetry_of_lt lt]
      refine .bind (c.record_calm _).at fun _ => ?_
      refine .bind (publishRetryCopy_triple c.toSettings limited lt hk.symm wired') fun _ => ?_
      refine .bind (publishStatusIf_calm _ _ _ _ _ _).at fun _ => ?_
      exact .pure fun t h => ⟨.retried, trivial, h⟩
    · have le := not_lt.mp lt
      simp only [Option.map_some, decideRetry_of_le le, Option.isNone_some, Bool.false_eq_true,
        ↓reduceIte]
      refine .bind (c.record_calm _).at fun _ => ?_
      refine .bind (publishDeadLetterCopy_triple c.toSettings
        (fun hi copy => .deadLettered hi limited le copy) hk.symm
        fun hw => ⟨wired' hw, by simp [hp]⟩) fun _ => ?_
      refine .bind (publishStatusIf_calm _ _ _ _ _ _).at fun _ => ?_
      exact .pure fun t h => ⟨.deadLettered true, trivial, h⟩

/-- Where the stage leaves the delivery; `none` where it has completed. -/
def StageVerdict (p : Plan) : Option Bool → List Event → Prop
  | none => fun t => Reaches p t .succeeded
  | some acked => Verdict p acked

theorem runStage_triple {message : WorkflowEnvelope} {context : WorkflowContext}
    (dedupAcquired : Bool) (hm : p.maxRetries = c.effectiveRetryPolicy.map (·.maxRetries))
    (hk : p.kept = p.metadata.headers)
    (wired : W → c.Wired p.retryInfrastructure) (ha : context.retryAttempt = p.attempt) :
    Triple (fun t => Reaches p t (.opened []))
      (c.runStage p.toDelivery message context dedupAcquired) (StageVerdict p)
      (fun _ => Broken p W) := by
  refine .bind (.attempt_perform (Q := Ended p W) fun t answer h => ?_) fun ended => ?_
  · cases answer with
    | ok _ => exact h.snoc .stageReturned
    | error exc => exact faulted_of_raise h .stageRaised fun hc => by subst hc; rfl
  · refine tryStatement_triple (.pure fun _ => id)
      (fun exc => .bind (c.onHandlerFailed_triple hm hk wired ha) fun acked => .pure fun _ => id)
      (fun acked => ?_) (fun acked t h => ?_) fun _ =>
        (c.cleanupDedupState_calm dedupAcquired message).any.bind fun _ =>
          (c.recordOutcome_calm _ ended).any.bind fun _ => c.releaseStageLease_benign message
    · cases acked with
      | none => exact Stable.reaches
      | some acked => exact Stable.verdict
    · cases acked with
      | none => exact ⟨_, h⟩
      | some acked => exact Verdict.reaches h

theorem acquireStageLease_triple {message : WorkflowEnvelope} {context : WorkflowContext} :
    Triple (fun t => Reaches p t (.opened [])) (c.acquireStageLease message context)
      (fun _ t => Reaches p t (.opened [])) (fun _ => Broken p W) := by
  unfold acquireStageLease
  split
  · exact .pure fun _ => id
  · exact (Benign.perform rfl).at

theorem processStage_triple {message : WorkflowEnvelope} {context : WorkflowContext}
    (dedupAcquired : Bool) (hm : p.maxRetries = c.effectiveRetryPolicy.map (·.maxRetries))
    (hk : p.kept = p.metadata.headers)
    (wired : W → c.Wired p.retryInfrastructure) (ha : context.retryAttempt = p.attempt) :
    Triple (fun t => Reaches p t (.opened []))
      (c.processStage p.toDelivery message context dedupAcquired)
      (fun acked t => Verdict p acked t ∧ c.Measurable p.attempt)
      (fun _ => Fails p W (c.Measurable p.attempt)) := by
  unfold processStage
  rw [ha]
  refine .bind (recordTaskStarted_triple c.toSettings _) fun _ => .of_and fun fits => ?_
  refine .bind (triple_fails c.acquireStageLease_triple) fun granted => ?_
  refine Triple.conseq (?_ : Triple (fun t => Reaches p t (.opened [])) _ (Verdict p)
    (fun _ => Broken p W)) (fun _ => id) (fun _ _ h => ⟨h, fits⟩) fun _ _ h => h.fails
  cases granted with
  | true =>
    refine .bind (c.runStage_triple dedupAcquired hm hk wired ha) fun acked => ?_
    cases acked with
    | some acked => exact .pure fun _ => id
    | none =>
      exact .bind (c.emitObservation_calm _).at fun _ =>
        .pure fun t h => ⟨.succeeded, trivial, h⟩
  | false =>
    refine .bind (c.emitObservation_calm _).at fun _ => ?_
    refine .bind (reject_triple true) fun _ => ?_
    refine .bind (c.cleanupDedupState_calm dedupAcquired message).settled fun _ => ?_
    exact .bind (c.record_calm _).settled fun _ => .pure fun _ => id

theorem refuse_triple {taskId : Option String} {reason : String} {exceptionType : Option String}
    (wired : W → c.Wired p.retryInfrastructure) :
    Triple (fun t => Reaches p t (.opened [])) (c.refuse p.toDelivery taskId reason exceptionType)
      (Verdict p) (fun _ => Broken p W) := by
  unfold refuse
  split
  · exact .bind (reject_triple false) fun _ => .pure fun _ => id
  · rename_i policy hp
    refine .bind (publishDeadLetterCopy_triple c.toSettings (fun hi copy => .refused hi copy)
      rfl fun hw => ⟨(wired hw).1 (by simp [hp]), by simp [hp]⟩) fun _ => ?_
    exact .pure fun t h => ⟨.deadLettered false, trivial, h⟩

theorem markInflight_benign (message : WorkflowEnvelope) :
    Benign (fun _ => True) (Proc.tryCatch (perform (.markInflight (c.dedupScope message))) fun
      | .cancelled => .raise .cancelled
      | exc => do
        perform (.releaseDedup (c.dedupScope message))
        .raise exc) := by
  refine (Benign.perform rfl).tryCatch fun exc P hP => ?_
  cases exc with
  | cancelled => exact .raise fun _ h => ⟨h, trivial⟩
  | _ =>
    refine .bind ((Benign.perform rfl P hP).conseq (fun _ => id) (fun _ _ => id) fun _ _ h =>
      ⟨h.1, trivial⟩) fun _ => .raise fun _ h => ⟨h, trivial⟩

theorem processDeduplicated_triple {message : WorkflowEnvelope} {context : WorkflowContext}
    (hm : p.maxRetries = c.effectiveRetryPolicy.map (·.maxRetries))
    (hk : p.kept = p.metadata.headers)
    (wired : W → c.Wired p.retryInfrastructure) (ha : context.retryAttempt = p.attempt) :
    Triple (fun t => Reaches p t (.opened []))
      (c.processDeduplicated p.toDelivery message context)
      (fun acked t => Verdict p acked t ∧ Digested (c.Measurable p.attempt) t)
      (fun _ => Fails p W (c.Measurable p.attempt)) := by
  have process (acquired : Bool) : Triple (fun t => Reaches p t (.opened []))
      (c.processStage p.toDelivery message context acquired)
      (fun acked t => Verdict p acked t ∧ Digested (c.Measurable p.attempt) t)
      (fun _ => Fails p W (c.Measurable p.attempt)) :=
    (c.processStage_triple acquired hm hk wired ha).conseq (fun _ => id)
      (fun _ _ h => ⟨h.1, Or.inl h.2⟩) fun _ _ => id
  unfold processDeduplicated
  split
  · exact process false
  · rename_i fields
    split
    · rename_i missing
      refine .raise fun t h => Or.inl ⟨⟨_, h⟩, fun hw => ?_⟩
      simp [(wired hw).2 fields] at missing
    · refine .bind (Q := fun acquired t => Reaches p t (.opened []) ∧
        (acquired = false → Digested (c.Measurable p.attempt) t)) ?_ fun acquired => ?_
      · refine .perform (fun t acquired h => ⟨h.snoc (.auxiliary rfl), ?_⟩) fun t exc h => ?_
        · rintro rfl
          exact Or.inr ⟨_, List.mem_append_right _ (List.mem_singleton_self _), rfl⟩
        · exact Or.inl ⟨⟨_, h.snoc (.auxiliary rfl)⟩, fun _ => unhealthy_snoc rfl⟩
      · cases acquired with
        | true =>
          exact .bind (triple_fails ((c.markInflight_benign message).at.conseq (fun _ h => h.1)
            (fun _ _ => id) fun _ _ => id)) fun _ => process true
        | false =>
          exact ((c.refuse_triple wired).frame fun _ => Digested.mono).conseq
            (fun _ h => ⟨h.1, h.2 rfl⟩) (fun _ _ => id) fun _ _ h => h.1.fails

/-- What is known of a delivery to the consumer. -/
def plan (d : Delivery) : Plan where
  toDelivery := d
  maxRetries := c.effectiveRetryPolicy.map (·.maxRetries)
  kept := d.metadata.headers
  items := none

/-- What makes a message digestible whose attempt has been read. -/
def DigestibleAt (message : Message) (attempt : Int) : Prop :=
  match c.codec.parseTransportJson message.body with
  | .error _ => True
  | .ok payload =>
    ∀ envelope, c.codec.validateWorkflow message.fresh (c.normalize payload) = some envelope →
      validateActionContract c.stage.acceptedActions envelope.action envelope.payload = none →
        (∃ rawPayload, c.codec.dumpWorkflow envelope = .ok rawPayload) ∧ c.Measurable attempt

variable {c} {d : Delivery}

theorem handleMessageImpl_triple (wired : W → c.Wired d.retryInfrastructure) :
    Triple (fun t => Reaches (c.plan d) t (.opened [])) (c.handleMessageImpl d)
      (fun acked t => Verdict (c.plan d) acked t ∧
        Digested (c.DigestibleAt d.message d.metadata.retryAttempt) t)
      (fun _ => Fails (c.plan d) W (c.DigestibleAt d.message d.metadata.retryAttempt)) := by
  unfold handleMessageImpl DigestibleAt
  cases c.codec.parseTransportJson d.message.body with
  | error text =>
    exact (c.refuse_triple (p := c.plan d) wired).conseq (fun _ => id)
      (fun _ _ h => ⟨h, Or.inl trivial⟩) fun _ _ h => h.fails
  | ok payload =>
    dsimp only
    cases c.codec.validateWorkflow d.message.fresh (c.normalize payload) with
    | none =>
      exact (c.refuse_triple (p := c.plan d) wired).conseq (fun _ => id)
        (fun _ _ h => ⟨h, Or.inl fun _ h => nomatch h⟩) fun _ _ h => h.fails
    | some message =>
      dsimp only
      cases hv : validateActionContract c.stage.acceptedActions message.action message.payload with
      | some reason =>
        refine (c.refuse_triple (p := c.plan d) wired).conseq (fun _ => id)
          (fun _ _ h => ⟨h, Or.inl ?_⟩) fun _ _ h => h.fails
        rintro _ ⟨⟩ accepted
        exact nomatch hv.symm.trans accepted
      | none =>
        refine .bind (triple_fails (c.emitObservation_calm _).at) fun _ => ?_
        cases hj : c.codec.dumpWorkflow message with
        | error e =>
          refine .bind (Q := fun _ _ => False) (.raise fun t h => Or.inr ⟨⟨_, h⟩, ?_⟩) fun _ => ?_
          · intro digestible
            obtain ⟨⟨rawPayload, h⟩, -⟩ := digestible message rfl hv
            exact nomatch hj.symm.trans h
          · exact fun _ _ _ h => h.elim
        | ok rawPayload =>
          refine .bind (Q := fun _ t => Reaches (c.plan d) t (.opened [])) (.pure fun _ => id)
            fun rawPayload => ?_
          refine (c.processDeduplicated_triple (p := c.plan d) rfl rfl wired rfl).conseq
            (fun _ => id)
            (fun _ _ h => ⟨h.1, h.2.imp ?_⟩) fun _ _ h => h.mono fun digestible => ?_
          · rintro fits _ ⟨⟩ -
            exact ⟨⟨_, hj⟩, fits⟩
          · exact (digestible message rfl hv).2

end WorkflowConsumer

namespace AnyConsumer

variable (c : AnyConsumer)

/-- What is known of a delivery to the consumer. -/
def plan (d : Delivery) : Plan :=
  match c with
  | .task c => c.plan d
  | .aggregation c => c.plan d
  | .workflow c => c.plan d

/-- The headers of a retry copy, but for the retry headers: a task consumer writes those of a batch
item back as it has read them. -/
def carriedHeaders (headers : Dict) : Dict :=
  match c with
  | .task _ => restated headers
  | .aggregation _ | .workflow _ => headers

/-- What `run_forever` provides. -/
def Wired (retryInfrastructure : Option RetryInfrastructure) : Prop :=
  match c with
  | .task c => Provided c.retryPolicy retryInfrastructure
  | .aggregation c => Provided c.retryPolicy retryInfrastructure
  | .workflow c => c.Wired retryInfrastructure

def DigestibleAt (message : Message) (attempt : Int) : Prop :=
  match c with
  | .task c => c.DigestibleAt message attempt
  | .aggregation c => c.DigestibleAt message attempt
  | .workflow c => c.DigestibleAt message attempt

/-- The attempt can be read, and what is read and written for the rest of the message, too. -/
def Digestible (message : Message) : Prop :=
  ∃ attempt, retryAttemptFromHeaders message.headers = .ok attempt ∧
    c.DigestibleAt message attempt

@[simp] theorem plan_toDelivery (d : Delivery) : (c.plan d).toDelivery = d := by cases c <;> rfl

@[simp] theorem plan_maxRetries (d : Delivery) :
    (c.plan d).maxRetries = c.retryPolicy.map (·.maxRetries) := by
  cases c <;> rfl

@[simp] theorem plan_kept (d : Delivery) :
    (c.plan d).kept = c.carriedHeaders d.metadata.headers := by
  cases c <;> rfl

/-- What is run once the metadata of the message has been read. -/
def handleImpl (d : Delivery) : Proc Unit :=
  match c with
  | .task c => c.handleMessageImpl d
  | .aggregation c => c.handleMessageImpl d
  | .workflow c => do
    let acked ← c.handleMessageImpl d
    if acked then ack

variable {c} {message : Message} {sourceQueueName : String}
  {retryInfrastructure : Option RetryInfrastructure}

theorem handleImpl_triple {d : Delivery} (hd : d.metadata.headers = d.message.headers)
    (wired : W → c.Wired d.retryInfrastructure) :
    Triple (fun t => Reaches (c.plan d) t (.opened [])) (c.handleImpl d)
      (fun _ t => Settled (c.plan d) t ∧
        Digested (c.DigestibleAt d.message d.metadata.retryAttempt) t)
      (fun _ => Fails (c.plan d) W (c.DigestibleAt d.message d.metadata.retryAttempt)) := by
  cases c with
  | task c => exact TaskConsumer.handleMessageImpl_triple hd wired
  | aggregation c => exact AggregationConsumer.handleMessageImpl_triple hd wired
  | workflow c =>
    refine .bind (WorkflowConsumer.handleMessageImpl_triple wired) fun acked => ?_
    cases acked with
    | true =>
      exact (ack_of_verdict.frame fun _ => Digested.mono).conseq (fun _ => id) (fun _ _ => id)
        fun _ _ h => h.1.fails
    | false => exact .pure fun _ => id

theorem handle_eq :
    c.handle message sourceQueueName retryInfrastructure =
      Proc.ofExcept (extractMessageMetadata message) >>= fun metadata =>
        c.handleImpl ⟨message, metadata, sourceQueueName, retryInfrastructure⟩ := by
  cases c with
  | task c => rfl
  | aggregation c => rfl
  | workflow c =>
    simp only [handle, handleImpl, WorkflowConsumer.handleMessage]
    cases extractMessageMetadata message with
    | ok metadata => rfl
    | error exc => rfl

/-- A delivery whose attempt cannot be read is left as it is, and any other one lives by the
protocol. -/
theorem handle_run {es : List Event} {res : Except Exc Unit}
    (run : Run (c.handle message sourceQueueName retryInfrastructure) es res) :
    (∃ exc, extractMessageMetadata message = .error exc ∧ es = [] ∧ res = .error exc) ∨
      ∃ metadata, extractMessageMetadata message = .ok metadata ∧
        Ending (fun _ t => Settled (c.plan ⟨message, metadata, sourceQueueName,
            retryInfrastructure⟩) t ∧ Digested (c.DigestibleAt message metadata.retryAttempt) t)
          (fun _ => Fails (c.plan ⟨message, metadata, sourceQueueName, retryInfrastructure⟩)
            (c.Wired retryInfrastructure) (c.DigestibleAt message metadata.retryAttempt))
          res es := by
  rw [handle_eq] at run
  cases hm : extractMessageMetadata message with
  | error exc =>
    rw [hm] at run
    obtain ⟨rfl, rfl⟩ := run_raise_iff.mp run
    exact Or.inl ⟨exc, rfl, rfl, rfl⟩
  | ok metadata =>
    rw [hm] at run
    have headers := (extractMessageMetadata_ok hm).1
    exact Or.inr ⟨metadata, rfl, handleImpl_triple headers id [] es res .start run⟩

end AnyConsumer

end Relayna.Consumer
