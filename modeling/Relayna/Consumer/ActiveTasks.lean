import Relayna.Consumer.BatchPublish
import Relayna.Consumer.DedupState
import Relayna.Foundation.Names

/-!
# The gauge of the active tasks

`record_task_started` increments `worker_active_tasks` and `record_task_finished` decrements it.
A task consumer increments before its `try` statement, and its `finally` block decrements if an
outcome has been set, after the resource sample at the end. A workflow consumer increments before
it asks for the lease, which is before its `try` statement.
-/
namespace Relayna.Consumer

open Python Contracts Await

/-- The labels of `worker_active_tasks`, without the service, which is that of the process. -/
structure WorkerLabels where
  stage : String
  queue : String
  workerType : WorkerType
  deriving DecidableEq

/-- `_label`. -/
def label (value : Option String) : String := (nonEmpty (strip (value.getD ""))).getD "none"

/-- `worker_labels`. -/
def MetricLabels.workerLabels (l : MetricLabels) : WorkerLabels :=
  ⟨label l.stage, label l.queue, l.workerType⟩

/-- `worker_active_tasks.labels(...).inc()`. -/
def Op.increments (labels : WorkerLabels) : Op → Bool
  | .metric (.taskStarted l _) => l.workerLabels == labels
  | _ => false

/-- `worker_active_tasks.labels(...).dec()`. -/
def Op.decrements (labels : WorkerLabels) : Op → Bool
  | .metric (.taskFinished l _) => l.workerLabels == labels
  | _ => false

def increments (labels : WorkerLabels) (es : List Event) : Nat :=
  es.countP fun e => e.op.increments labels

def decrements (labels : WorkerLabels) (es : List Event) : Nat :=
  es.countP fun e => e.op.decrements labels

/-- The gauge after these events. -/
def activeTasks (labels : WorkerLabels) (es : List Event) : Int :=
  increments labels es - decrements labels es

/-- There are as many increments as decrements with the same labels. -/
def Balanced (es : List Event) : Prop := ∀ labels, increments labels es = decrements labels es

/-! ## What the gauge does not survive -/

/-- A cancellation from outside. -/
def interrupts : Event → Bool
  | ⟨.metric _, _⟩ | ⟨.sampleResources, _⟩ => false
  | ⟨_, .error .cancelled⟩ => true
  | _ => false

/-- The handler raises, or its request for a manual retry is not published. -/
def fails : Event → Bool
  | ⟨.handler _, .error .cancelled⟩ | ⟨.handler _, .error (.manualRetryRequested _)⟩ => false
  | ⟨.publishTask _, .error .cancelled⟩ => false
  | ⟨.handler _, .error _⟩ | ⟨.publishTask _, .error _⟩ => true
  | _ => false

/-- The observation of the resource sample at the end. -/
def Op.samplesEnd : Op → Bool
  | .observe (.taskResourceSampled _ _ _ _ _ kind) => decide (kind = .finish)
  | _ => false

/-- The task is cancelled before it has failed, or while its end sample is observed. -/
def Abandons (es : List Event) : Prop :=
  ∃ first e rest, es = first ++ e :: rest ∧ interrupts e = true ∧
    (e.op.samplesEnd = true ∨ ∀ f ∈ first, fails f = false)

/-- `record_task_started` has been called. -/
def starts : Event → Bool
  | ⟨.metric (.taskStarted _ _), _⟩ => true
  | _ => false

/-- The lease store raises; the message without a lease is not rejected, or its observation is
cancelled; the handler or the cleanup of the dedup state is cancelled. -/
def loses : Event → Bool
  | ⟨.acquireLease _, .error _⟩ | ⟨.reject true, .error _⟩ => true
  | ⟨.observe (.workflowStageFailed _ _ _ true), .error .cancelled⟩ => true
  | ⟨.workflowHandler .., .error .cancelled⟩ => true
  | ⟨.clearInflight _, .error .cancelled⟩ | ⟨.releaseDedup _, .error .cancelled⟩ => true
  | _ => false

/-! ## Traces -/

section Traces

variable {own : WorkerLabels} {on : Bool} {t : List Event} {e : Event}

/-- What `record_task_started` and `record_task_finished` are called with. -/
def Op.gauges : Op → Bool
  | .metric (.taskStarted ..) | .metric (.taskFinished ..) => true
  | _ => false

/-- The increment with the labels `own` is outstanding, where there are metrics. -/
def Opened (own : WorkerLabels) (on : Bool) (t : List Event) : Prop :=
  ∀ labels, increments labels t = decrements labels t + if on && own == labels then 1 else 0

theorem increments_of_plain (plain : e.op.gauges = false) (labels : WorkerLabels) :
    e.op.increments labels = false := by
  obtain ⟨op, answer⟩ := e
  cases op with
  | metric m =>
    cases m with
    | taskStarted | taskFinished => cases plain
    | _ => rfl
  | _ => rfl

theorem decrements_of_plain (plain : e.op.gauges = false) (labels : WorkerLabels) :
    e.op.decrements labels = false := by
  obtain ⟨op, answer⟩ := e
  cases op with
  | metric m =>
    cases m with
    | taskStarted | taskFinished => cases plain
    | _ => rfl
  | _ => rfl

theorem Balanced.plain (h : Balanced t) (plain : e.op.gauges = false) : Balanced (t ++ [e]) := by
  intro labels
  simpa [increments, decrements, increments_of_plain plain, decrements_of_plain plain]
    using h labels

theorem Opened.plain (h : Opened own on t) (plain : e.op.gauges = false) :
    Opened own on (t ++ [e]) := by
  intro labels
  simpa [increments, decrements, increments_of_plain plain, decrements_of_plain plain]
    using h labels

theorem Balanced.starts (h : Balanced t) {l : MetricLabels} {attempt : Int}
    {answer : Except Exc Unit} :
    Opened l.workerLabels true (t ++ [⟨.metric (.taskStarted l attempt), answer⟩]) := by
  intro labels
  have := h labels
  simp only [increments, decrements, List.countP_append, List.countP_singleton, Op.increments,
    Op.decrements] at this ⊢
  simp [this]

theorem Opened.finishes {l : MetricLabels} (h : Opened own true t) (same : l.workerLabels = own)
    {outcome : Outcome} {answer : Except Exc Unit} :
    Balanced (t ++ [⟨.metric (.taskFinished l outcome), answer⟩]) := by
  intro labels
  have := h labels
  simp only [increments, decrements, List.countP_append, List.countP_singleton, Op.increments,
    Op.decrements, same] at this ⊢
  simpa using this

theorem Opened.balanced_iff (h : Opened own on t) : Balanced t ↔ on = false := by
  constructor
  · intro balanced
    have := h own
    rw [balanced own] at this
    simpa using this
  · rintro rfl labels
    simpa using h labels

theorem balanced_iff_opened : Balanced t ↔ Opened own false t :=
  ⟨fun h labels => by simpa using h labels, fun h => h.balanced_iff.mpr rfl⟩

end Traces

/-! ## Helpers that only a cancellation ends -/

/-- The program awaits only operations in `own`. It raises what `raises` allows, and a cancellation
only if one of them was cancelled. -/
def Attends {α : Type} (own : Op → Bool) (raises : Exc → Prop) (x : Proc α) : Prop :=
  ∀ P R : List Event → Prop,
    (∀ t e, P t → own e.op = true → interrupts e = false → P (t ++ [e])) →
    (∀ t e, P t → own e.op = true → interrupts e = true → R (t ++ [e])) →
    Triple P x (fun _ => P)
      fun exc t => raises exc ∧ (exc = .cancelled → R t) ∧ (exc ≠ .cancelled → P t)

namespace Attends

variable {α β : Type} {own own' : Op → Bool} {raises raises' : Exc → Prop} {x : Proc α}

theorem pure (a : α) : Attends own raises (Pure.pure a : Proc α) := fun _ _ _ _ => .pure fun _ => id

theorem bind {f : α → Proc β} (hx : Attends own raises x) (hf : ∀ a, Attends own raises (f a)) :
    Attends own raises (x >>= f) :=
  fun P R keep stop => .bind (hx P R keep stop) fun a => hf a P R keep stop

theorem mono (hx : Attends own raises x) (more : ∀ op, own op = true → own' op = true)
    (weaker : ∀ exc, raises exc → raises' exc) : Attends own' raises' x :=
  fun P R keep stop => (hx P R (fun t e h mine => keep t e h (more _ mine))
    fun t e h mine => stop t e h (more _ mine)).conseq (fun _ => id) (fun _ _ => id)
      fun exc _ h => ⟨weaker exc h.1, h.2⟩

theorem perform {op : Op} (mine : own op = true)
    (loud : interrupts ⟨op, .error .cancelled⟩ = true) :
    Attends own (fun _ => True) (perform op) := by
  intro P R keep stop
  refine .perform (fun t a h => keep t _ h mine ?_) fun t exc h => ⟨trivial, ?_, ?_⟩
  · cases op <;> rfl
  · rintro rfl
    exact stop t _ h mine loud
  · intro other
    refine keep t _ h mine ?_
    cases exc with
    | cancelled => exact (other rfl).elim
    | _ => cases op <;> rfl

/-- A call whose answer is ignored. -/
theorem attempt {op : Op} (mine : own op = true)
    (quiet : ∀ answer, interrupts ⟨op, answer⟩ = false) :
    Attends own raises (Consumer.perform op).attempt :=
  fun _ _ keep _ => .attempt_perform fun t answer h => keep t _ h mine (quiet answer)

theorem swallow {x : Proc Unit} (hx : Attends own raises x) :
    Attends own (· = .cancelled) (swallow x) := by
  intro P R keep stop
  refine .tryCatch (hx P R keep stop) fun exc => ?_
  cases exc with
  | cancelled => exact .raise fun t h => ⟨rfl, fun _ => h.2.1 rfl, fun other => (other rfl).elim⟩
  | _ => exact .pure fun t h => h.2.2 nofun

end Attends

/-- What a task awaits up to its handler, and for its status. -/
def Op.marks : Op → Bool
  | .publishStatus .. | .observe (.taskLifecycleStatusPublished ..)
  | .observe (.taskResourceSampled _ _ _ _ _ .start) | .sampleResources
  | .metric (.observationEvent ..) => true
  | _ => false

/-- What it awaits for the sample at the end. -/
def Op.closes : Op → Bool
  | .observe (.taskResourceSampled _ _ _ _ _ .finish) | .sampleResources
  | .metric (.observationEvent ..) => true
  | _ => false

namespace TaskConsumer

variable (c : TaskConsumer) (d : Delivery) {own : Op → Bool}

theorem emitObservation_attends {observation : Observation}
    (mine : own (.observe observation) = true) :
    Attends own (· = .cancelled) (c.emitObservation observation) := by
  unfold Settings.emitObservation
  split
  · exact (Attends.perform mine rfl).swallow
  · exact .pure _

theorem publishLifecycleStatus_attends (context : TaskContext) (status message : String) :
    Attends Op.marks (· = .cancelled) (c.publishLifecycleStatus d context status message) := by
  unfold publishLifecycleStatus
  split
  · exact ((Attends.perform rfl rfl).bind fun _ =>
      (c.emitObservation_attends rfl).mono (fun _ => id) fun _ _ => trivial).swallow
  · exact .pure _

variable (own) in
theorem emitTaskResourceSample_attends (kind : SampleKind) (task : TaskEnvelope)
    (context : TaskContext) (samples : own .sampleResources = true)
    (observes : ∀ a b c d e, own (.observe (.taskResourceSampled a b c d e kind)) = true)
    (records : ∀ l, own (.metric (.observationEvent l kind)) = true) :
    Attends own (· = .cancelled) (c.emitTaskResourceSample d task context kind) := by
  unfold emitTaskResourceSample
  split
  · refine (Attends.attempt samples fun _ => rfl).bind fun sampled => ?_
    split
    · refine (c.emitObservation_attends (observes ..)).bind fun _ => ?_
      unfold Settings.record
      split
      · exact (Attends.attempt (records _) fun _ => rfl).bind fun _ => .pure _
      · exact .pure _
    · exact .pure _
  · exact .pure _

theorem beginTask_attends (task : TaskEnvelope) (context : TaskContext) :
    Attends Op.marks (· = .cancelled) (c.beginTask d task context) :=
  (c.publishLifecycleStatus_attends d context _ _).bind fun _ =>
    c.emitTaskResourceSample_attends d Op.marks .start task context rfl (fun _ _ _ _ _ => rfl)
      fun _ => rfl

end TaskConsumer

/-! ## The task consumer -/

section Task

variable {own : WorkerLabels} {on : Bool} {t : List Event} {e : Event}

theorem abandons_snoc : Abandons (t ++ [e]) ↔ Abandons t ∨
    interrupts e = true ∧ (e.op.samplesEnd = true ∨ ∀ f ∈ t, fails f = false) := by
  constructor
  · rintro ⟨first, e', rest, whole, h⟩
    obtain rfl | ⟨rest, last, rfl⟩ := List.eq_nil_or_concat rest
    · obtain ⟨rfl, same⟩ := List.append_inj' whole rfl
      obtain rfl := (List.cons.inj same).1
      exact Or.inr h
    · rw [List.concat_eq_append, ← List.cons_append, ← List.append_assoc] at whole
      exact Or.inl ⟨first, e', rest, List.append_inj_left' whole rfl, h⟩
  · rintro (⟨first, e', rest, rfl, h⟩ | h)
    · exact ⟨first, e', rest ++ [e], by simp, h⟩
    · exact ⟨t, e, [], rfl, h⟩

/-- The task has been begun, and neither failed nor been cancelled. -/
structure Underway (own : WorkerLabels) (on : Bool) (t : List Event) : Prop where
  opened : Opened own on t
  attended : ¬Abandons t
  sound : ∀ f ∈ t, fails f = false

structure HasFailed (own : WorkerLabels) (on : Bool) (t : List Event) : Prop where
  opened : Opened own on t
  attended : ¬Abandons t
  failed : ∃ f ∈ t, fails f = true

structure Abandoned (own : WorkerLabels) (on : Bool) (t : List Event) : Prop where
  opened : Opened own on t
  abandons : Abandons t

/-- The gauge is balanced exactly if the task has not been abandoned. -/
def Told (on : Bool) (t : List Event) : Prop := Balanced t ↔ ¬(on = true ∧ Abandons t)

theorem Underway.keep (h : Underway own on t) (plain : e.op.gauges = false)
    (calm : interrupts e = false) (succeeds : fails e = false) : Underway own on (t ++ [e]) := by
  refine ⟨h.opened.plain plain, fun abandons => ?_, fun f hf => ?_⟩
  · obtain before | ⟨now, -⟩ := abandons_snoc.mp abandons
    · exact h.attended before
    · rw [calm] at now
      cases now
  · obtain hf | hf := List.mem_append.mp hf
    · exact h.sound f hf
    · exact List.mem_singleton.mp hf ▸ succeeds

theorem Underway.stop (h : Underway own on t) (plain : e.op.gauges = false)
    (interrupted : interrupts e = true) : Abandoned own on (t ++ [e]) :=
  ⟨h.opened.plain plain, abandons_snoc.mpr (Or.inr ⟨interrupted, Or.inr h.sound⟩)⟩

theorem Underway.fail (h : Underway own on t) (plain : e.op.gauges = false)
    (calm : interrupts e = false) (failed : fails e = true) : HasFailed own on (t ++ [e]) := by
  refine ⟨h.opened.plain plain, fun abandons => ?_, e, by simp, failed⟩
  obtain before | ⟨now, -⟩ := abandons_snoc.mp abandons
  · exact h.attended before
  · rw [calm] at now
    cases now

theorem HasFailed.keep (h : HasFailed own on t) (plain : e.op.gauges = false)
    (calm : interrupts e = true → e.op.samplesEnd = false) : HasFailed own on (t ++ [e]) := by
  obtain ⟨f, hf, failed⟩ := h.failed
  refine ⟨h.opened.plain plain, fun abandons => ?_, f, List.mem_append_left _ hf, failed⟩
  obtain before | ⟨now, last | sound⟩ := abandons_snoc.mp abandons
  · exact h.attended before
  · rw [calm now] at last
    cases last
  · rw [sound f hf] at failed
    cases failed

theorem Abandoned.keep (h : Abandoned own on t) (plain : e.op.gauges = false) :
    Abandoned own on (t ++ [e]) :=
  ⟨h.opened.plain plain, abandons_snoc.mpr (Or.inl h.abandons)⟩

theorem Abandoned.told (h : Abandoned own on t) : Told on t := by
  rw [Told, h.opened.balanced_iff]
  simp [h.abandons]

/-- The decrement, where there are metrics. -/
theorem record_told (s : Settings) {l : MetricLabels} (outcome : Outcome)
    (same : l.workerLabels = own) :
    Triple (fun t => Opened own s.metrics t ∧ ¬Abandons t) (s.record (.taskFinished l outcome))
      (fun _ => Told s.metrics) (fun _ => Told s.metrics) := by
  unfold Settings.record
  split
  · next on =>
    rw [on]
    refine .bind (.attempt_perform fun t answer h => ?_) fun _ => .pure fun _ => id
    have attended : ¬Abandons (t ++ [⟨.metric (.taskFinished l outcome), answer⟩]) :=
      fun abandons => (abandons_snoc.mp abandons).elim h.2 fun now => by cases now.1
    exact iff_of_true (h.1.finishes same) fun lost => attended lost.2
  · next off =>
    refine .pure fun t h => ?_
    have off : s.metrics = false := by simpa using off
    exact iff_of_true (h.1.balanced_iff.mpr off) fun lost => by rw [off] at lost; cases lost.1

/-- Where the handler's part has left the task. -/
def After (own : WorkerLabels) (on : Bool) : Except Exc Unit → List Event → Prop
  | .ok _ => Underway own on
  | .error .cancelled => Abandoned own on
  | .error _ => HasFailed own on

theorem After.keep {ended : Except Exc Unit} (h : After own on ended t)
    (plain : e.op.gauges = false) (calm : interrupts e = false) (succeeds : fails e = false) :
    After own on ended (t ++ [e]) := by
  have kept (h : HasFailed own on t) : HasFailed own on (t ++ [e]) :=
    h.keep plain fun now => by rw [calm] at now; cases now
  cases ended with
  | ok _ => exact Underway.keep h plain calm succeeds
  | error exc =>
    cases exc with
    | cancelled => exact Abandoned.keep h plain
    | _ => exact kept h

theorem After.opened {ended : Except Exc Unit} (h : After own on ended t) : Opened own on t := by
  cases ended with
  | ok _ => exact Underway.opened h
  | error exc =>
    cases exc with
    | cancelled => exact Abandoned.opened h
    | _ => exact HasFailed.opened h

theorem gauges_of_marks {op : Op} (mine : op.marks = true) : op.gauges = false := by
  cases op with
  | metric m =>
    cases m with
    | observationEvent => rfl
    | _ => cases mine
  | _ => rfl

theorem fails_of_marks (mine : e.op.marks = true) : fails e = false := by
  obtain ⟨op, answer⟩ := e
  cases op with
  | handler | publishTask => cases mine
  | _ => rfl

theorem gauges_of_closes {op : Op} (mine : op.closes = true) : op.gauges = false := by
  cases op with
  | metric m =>
    cases m with
    | observationEvent => rfl
    | _ => cases mine
  | _ => rfl

theorem fails_of_closes (mine : e.op.closes = true) : fails e = false := by
  obtain ⟨op, answer⟩ := e
  cases op with
  | handler | publishTask => cases mine
  | _ => rfl

theorem samplesEnd_of_closes (mine : e.op.closes = true) (interrupted : interrupts e = true) :
    e.op.samplesEnd = true := by
  obtain ⟨op, answer⟩ := e
  cases op with
  | observe o =>
    cases o with
    | taskResourceSampled _ _ _ _ _ kind =>
      cases kind with
      | start => cases mine
      | finish => rfl
    | _ => cases mine
  | sampleResources | metric => cases interrupted
  | _ => cases mine

theorem quiet_of_routine (op : Op) (routine : op.routine = true) :
    (op.gauges || op.samplesEnd) = false := by
  cases op with
  | observe o =>
    cases o with
    | taskResourceSampled _ _ _ _ _ kind =>
      cases kind with
      | start => rfl
      | finish => cases routine
    | _ => rfl
  | metric m =>
    cases m with
    | taskStarted | taskFinished => cases routine
    | _ => rfl
  | _ => rfl

/-- How the handler's part of a task has raised. -/
def Raised (own : WorkerLabels) (on : Bool) : Exc → List Event → Prop
  | .cancelled => Abandoned own on
  | _ => HasFailed own on

/-- The same where the handler has raised: a request for a manual retry is no failure. -/
def HandlerAnswered (own : WorkerLabels) (on : Bool) : Exc → List Event → Prop
  | .manualRetryRequested _ => Underway own on
  | exc => Raised own on exc

theorem ending_eq_after {ended : Except Exc Unit} :
    Ending (fun _ => Underway own on) (Raised own on) ended = After own on ended := by
  cases ended with
  | ok _ => rfl
  | error exc => cases exc <;> rfl

theorem Attends.begins {α : Type} {x : Proc α} (hx : Attends Op.marks (· = .cancelled) x) :
    Triple (Underway own on) x (fun _ => Underway own on) (Raised own on) := by
  refine (hx (Underway own on) (Abandoned own on) (fun t e h mine calm => ?_)
    fun t e h mine interrupted => ?_).conseq (fun _ => id) (fun _ _ => id) fun exc t h => ?_
  · exact h.keep (gauges_of_marks mine) calm (fails_of_marks mine)
  · exact h.stop (gauges_of_marks mine) interrupted
  · obtain ⟨rfl, stopped, -⟩ := h
    exact stopped rfl

end Task

namespace TaskConsumer

variable (c : TaskConsumer) (d : Delivery) {own : WorkerLabels} {on : Bool}

theorem callHandler_raises (context : TaskContext) :
    Triple (Underway own on) (callHandler context) (fun _ => Underway own on) (Raised own on) := by
  have answered : Triple (Underway own on) (perform (.handler context))
      (fun _ => Underway own on) (HandlerAnswered own on) := by
    refine .perform (fun t _ h => h.keep rfl rfl rfl) fun t exc h => ?_
    cases exc with
    | cancelled => exact h.stop rfl rfl
    | manualRetryRequested request => exact h.keep rfl rfl rfl
    | timeoutError text => exact h.fail rfl rfl rfl
    | error typeName text => exact h.fail rfl rfl rfl
  refine .tryCatch answered fun exc => ?_
  cases exc with
  | manualRetryRequested request => exact .pure fun _ => id
  | _ => exact .raise fun _ => id

theorem runHandler_raises (context : TaskContext) :
    Triple (Underway own on) (c.runHandler d context) (fun _ => Underway own on)
      (Raised own on) := by
  refine .bind (callHandler_raises context) fun request => ?_
  cases request with
  | none => exact (c.publishLifecycleStatus_attends d context _ _).begins
  | some request =>
    refine .bind (Attends.begins (Attends.perform rfl rfl).swallow) fun _ => ?_
    refine .perform (fun t _ h => h.keep rfl rfl rfl) fun t exc h => ?_
    cases exc with
    | cancelled => exact h.stop rfl rfl
    | _ => exact h.fail rfl rfl rfl

/-- Once the task has failed, no cancellation keeps the gauge from going down but that of the end
sample. -/
theorem onHandlerFailed_keeps (task : TaskEnvelope) (context : TaskContext) (exc : Exc) :
    Triple (HasFailed own on) (c.onHandlerFailed d task context exc) (fun _ => HasFailed own on)
      (fun _ => HasFailed own on) := by
  have avoids : Avoids (fun op : Op => op.gauges || op.samplesEnd)
      (c.onHandlerFailed d task context exc) :=
    c.onHandlerFailed_avoids d quiet_of_routine (fun _ => rfl) task context exc
  refine avoids _ fun t e h quiet => ?_
  obtain ⟨plain, early⟩ := Bool.or_eq_false_iff.mp quiet
  exact h.keep plain fun _ => early

theorem onException_keeps (task : TaskEnvelope) (context : TaskContext) (ended : Except Exc Unit) :
    Triple (After own on ended) (onException ended (pure true) (c.onHandlerFailed d task context))
      (fun _ => After own on ended) (fun _ => After own on ended) := by
  cases ended with
  | ok _ => exact .pure fun _ => id
  | error exc =>
    cases exc with
    | cancelled => exact .raise fun _ => id
    | _ => exact c.onHandlerFailed_keeps d task context _

theorem finishTask_told (task : TaskEnvelope) (context : TaskContext)
    (begun ended : Except Exc Unit) :
    Triple (After (d.labels .task task.taskType).workerLabels c.metrics ended)
      (c.finishTask d task context begun ended) (fun _ => Told c.metrics)
      (fun _ => Told c.metrics) := by
  have outcome : Triple (After (d.labels .task task.taskType).workerLabels c.metrics ended)
      (c.recordOutcome (d.labels .task task.taskType) ended) (fun _ => Told c.metrics)
      (fun _ => Told c.metrics) := by
    have finished (outcome : Outcome) := record_told c.toSettings
      (l := d.labels .task task.taskType) outcome rfl
    cases ended with
    | ok _ =>
      refine (finished .completed).conseq (fun _ h => ?_) (fun _ _ => id) fun _ _ => id
      exact ⟨Underway.opened h, Underway.attended h⟩
    | error exc =>
      cases exc with
      | cancelled => exact .pure fun _ h => Abandoned.told h
      | _ =>
        refine (finished .failed).conseq (fun _ h => ?_) (fun _ _ => id) fun _ _ => id
        exact ⟨HasFailed.opened h, HasFailed.attended h⟩
  cases begun with
  | error _ => exact outcome
  | ok _ =>
    have sampled := c.emitTaskResourceSample_attends d Op.closes .finish task context rfl
      (fun _ _ _ _ _ => rfl) fun _ => rfl
    refine .bind ((sampled _ (Abandoned (d.labels .task task.taskType).workerLabels c.metrics)
      (fun t e h mine calm => h.keep (gauges_of_closes mine) calm (fails_of_closes mine))
      fun t e h mine interrupted => ?_).conseq (fun _ => id) (fun _ _ => id) fun _ t h => ?_)
      fun _ => outcome
    · exact ⟨h.opened.plain (gauges_of_closes mine), abandons_snoc.mpr
        (Or.inr ⟨interrupted, Or.inl (samplesEnd_of_closes mine interrupted)⟩)⟩
    · obtain ⟨rfl, stopped, -⟩ := h
      exact (stopped rfl).told

/-- `_process_task`. -/
theorem processTask_told (task : TaskEnvelope) (context : TaskContext)
    (same : label (coerceTaskType c.codec.text context.rawPayload) = label task.taskType) :
    Triple (· = []) (c.processTask d task context) (fun _ => Told c.metrics)
      (fun _ => Told c.metrics) := by
  have none_ (t : List Event) (h : t = []) : Balanced t ∧ ¬Abandons t := by
    subst h
    refine ⟨fun _ => rfl, fun ⟨first, e, rest, whole, _⟩ => ?_⟩
    exact absurd whole.symm (by simp)
  have started : Triple (· = []) (c.recordTaskStarted
      (d.labels .task (coerceTaskType c.codec.text context.rawPayload)) context.retryAttempt)
      (fun _ => Underway (d.labels .task task.taskType).workerLabels c.metrics)
      (fun _ => Told c.metrics) := by
    unfold Settings.recordTaskStarted
    split
    · next on =>
      split
      · rw [on]
        refine .bind (.attempt_perform fun t answer h => ?_) fun _ => .pure fun _ => id
        obtain ⟨balanced, attended⟩ := none_ t h
        refine ⟨?_, fun abandons => ?_, fun f hf => ?_⟩
        · have labels :
              (d.labels .task (coerceTaskType c.codec.text context.rawPayload)).workerLabels =
                (d.labels .task task.taskType).workerLabels := by
            simp only [Delivery.labels, MetricLabels.workerLabels, same]
          exact labels ▸ balanced.starts
        · exact (abandons_snoc.mp abandons).elim attended fun now => by cases now.1
        · rw [h, List.nil_append, List.mem_singleton] at hf
          subst hf
          rfl
      · exact .raise fun t h => iff_of_true (none_ t h).1 fun lost => (none_ t h).2 lost.2
    · next off =>
      have off : c.metrics = false := by simpa using off
      rw [off]
      exact .pure fun t h => ⟨balanced_iff_opened.mp (none_ t h).1, (none_ t h).2,
        fun f hf => by rw [h] at hf; cases hf⟩
  unfold processTask
  refine .bind started fun _ => ?_
  refine .bind (c.beginTask_attends d task context).begins.attempt fun begun => ?_
  have handled : Triple
      (Ending (fun _ => Underway (d.labels .task task.taskType).workerLabels c.metrics)
        (Raised _ _) begun)
      (do Proc.ofExcept begun; c.runHandler d context) (fun _ => Underway _ _) (Raised _ _) :=
    .bind (.resume begun) fun _ => c.runHandler_raises d context
  refine .bind handled.attempt fun ended => ?_
  rw [ending_eq_after]
  exact .tryFinally (c.onException_keeps d task context ended)
    (fun _ => c.finishTask_told d task context begun ended)
    fun _ => c.finishTask_told d task context begun ended

end TaskConsumer

/-! ## The workflow consumer -/

section Stage

variable {own : WorkerLabels} {on : Bool} {t : List Event} {e : Event}

/-- No stage has been started yet. -/
structure Idle (t : List Event) : Prop where
  balanced : Balanced t
  unstarted : t.any starts = false

structure Ready (t : List Event) : Prop extends Idle t where
  kept : t.any loses = false

/-- The stage has been started, where there are metrics, and nothing is lost so far. -/
structure Live (own : WorkerLabels) (on : Bool) (t : List Event) : Prop where
  opened : Opened own on t
  started : t.any starts = on
  kept : t.any loses = false

/-- The decrement will not be made. -/
structure Lost (own : WorkerLabels) (on : Bool) (t : List Event) : Prop where
  opened : Opened own on t
  started : t.any starts = on
  lost : t.any loses = true

structure Done (t : List Event) : Prop where
  balanced : Balanced t
  kept : t.any loses = false

/-- The gauge is balanced exactly if no stage is lost. -/
def Counted (t : List Event) : Prop := Balanced t ↔ ¬(t.any starts = true ∧ t.any loses = true)

theorem Idle.counted (h : Idle t) : Counted t :=
  iff_of_true h.balanced fun lost => by rw [h.unstarted] at lost; cases lost.1

theorem Lost.counted (h : Lost own on t) : Counted t := by
  rw [Counted, h.opened.balanced_iff, h.started, h.lost]
  simp

theorem Done.counted (h : Done t) : Counted t :=
  iff_of_true h.balanced fun lost => by rw [h.kept] at lost; cases lost.2

theorem starts_of_plain (plain : e.op.gauges = false) : starts e = false := by
  obtain ⟨op, answer⟩ := e
  cases op with
  | metric m =>
    cases m with
    | taskStarted | taskFinished => cases plain
    | _ => rfl
  | _ => rfl

theorem Idle.plain (h : Idle t) (plain : e.op.gauges = false) : Idle (t ++ [e]) :=
  ⟨h.balanced.plain plain, by simp [h.unstarted, starts_of_plain plain]⟩

theorem Ready.keep (h : Ready t) (plain : e.op.gauges = false) (kept : loses e = false) :
    Ready (t ++ [e]) :=
  ⟨h.toIdle.plain plain, by simp [h.kept, kept]⟩

theorem Live.keep (h : Live own on t) (plain : e.op.gauges = false) (kept : loses e = false) :
    Live own on (t ++ [e]) :=
  ⟨h.opened.plain plain, by simp [h.started, starts_of_plain plain], by simp [h.kept, kept]⟩

theorem Live.lose (h : Live own on t) (plain : e.op.gauges = false) (lost : loses e = true) :
    Lost own on (t ++ [e]) :=
  ⟨h.opened.plain plain, by simp [h.started, starts_of_plain plain], by simp [lost]⟩

theorem Lost.keep (h : Lost own on t) (plain : e.op.gauges = false) : Lost own on (t ++ [e]) :=
  ⟨h.opened.plain plain, by simp [h.started, starts_of_plain plain], by simp [h.lost]⟩

theorem Done.keep (h : Done t) (plain : e.op.gauges = false) (kept : loses e = false) :
    Done (t ++ [e]) :=
  ⟨h.balanced.plain plain, by simp [h.kept, kept]⟩

/-- The operations after which a stage may be lost, and the metrics that the gauge is moved by. -/
def Op.critical : Op → Bool
  | .acquireLease _ | .reject true | .workflowHandler .. | .clearInflight _ | .releaseDedup _
  | .observe (.workflowStageFailed _ _ _ true) => true
  | op => op.gauges

theorem critical_of_routine (op : Op) (routine : op.routine = true) : op.critical = false := by
  cases op with
  | reject requeue =>
    cases requeue with
    | true => cases routine
    | false => rfl
  | observe o =>
    cases o with
    | workflowStageFailed _ _ _ requeue =>
      cases requeue with
      | true => cases routine
      | false => rfl
    | _ => rfl
  | metric m =>
    cases m with
    | taskStarted | taskFinished => cases routine
    | _ => rfl
  | acquireLease | workflowHandler | clearInflight | releaseDedup => cases routine
  | _ => rfl

theorem plain_of_uncritical {op : Op} (h : op.critical = false) : op.gauges = false := by
  cases op with
  | metric m =>
    cases m with
    | taskStarted | taskFinished => cases h
    | _ => rfl
  | _ => rfl

theorem loses_of_uncritical (h : e.op.critical = false) : loses e = false := by
  obtain ⟨op, answer⟩ := e
  cases op with
  | reject requeue =>
    cases requeue with
    | true => cases h
    | false => rfl
  | observe o =>
    cases o with
    | workflowStageFailed _ _ _ requeue =>
      cases requeue with
      | true => cases h
      | false => rfl
    | _ => rfl
  | acquireLease | workflowHandler | clearInflight | releaseDedup => cases h
  | _ => rfl

/-- Programs without critical operations. -/
abbrev Harmless {α : Type} (x : Proc α) : Prop := Avoids Op.critical x

variable {α : Type} {x : Proc α}

theorem Harmless.idle (h : Harmless x) : Triple Idle x (fun _ => Idle) (fun _ => Idle) :=
  h _ fun _ _ idle harmless => idle.plain (plain_of_uncritical harmless)

theorem Harmless.ready (h : Harmless x) : Triple Ready x (fun _ => Ready) (fun _ => Ready) :=
  h _ fun _ _ ready harmless =>
    ready.keep (plain_of_uncritical harmless) (loses_of_uncritical harmless)

theorem Harmless.live (h : Harmless x) :
    Triple (Live own on) x (fun _ => Live own on) (fun _ => Live own on) :=
  h _ fun _ _ live harmless =>
    live.keep (plain_of_uncritical harmless) (loses_of_uncritical harmless)

theorem Harmless.lost (h : Harmless x) :
    Triple (Lost own on) x (fun _ => Lost own on) (fun _ => Lost own on) :=
  h _ fun _ _ lost harmless => lost.keep (plain_of_uncritical harmless)

theorem Harmless.done (h : Harmless x) : Triple Done x (fun _ => Done) (fun _ => Done) :=
  h _ fun _ _ done harmless =>
    done.keep (plain_of_uncritical harmless) (loses_of_uncritical harmless)

/-- A cancellation has lost the stage, and nothing else has. -/
def Stopped (own : WorkerLabels) (on : Bool) (exc : Exc) (t : List Event) : Prop :=
  (exc = .cancelled → Lost own on t) ∧ (exc ≠ .cancelled → Live own on t)

theorem perform_stopped {op : Op} (plain : op.gauges = false)
    (succeeds : ∀ a, loses ⟨op, .ok a⟩ = false)
    (stops : ∀ exc : Exc, loses ⟨op, .error exc⟩ = true ↔ exc = .cancelled) :
    Triple (Live own on) (perform op) (fun _ => Live own on) (Stopped own on) := by
  refine .perform (fun t a h => h.keep plain (succeeds a)) fun t exc h => ⟨?_, fun other => ?_⟩
  · exact fun stopped => h.lose plain ((stops exc).mpr stopped)
  · exact h.keep plain (Bool.eq_false_iff.mpr fun lost => other ((stops exc).mp lost))

theorem swallow_live {x : Proc Unit}
    (hx : Triple (Live own on) x (fun _ => Live own on) (Stopped own on)) :
    Triple (Live own on) (swallow x) (fun _ => Live own on) (fun _ => Lost own on) := by
  refine .tryCatch hx fun exc => ?_
  cases exc with
  | cancelled => exact .raise fun _ h => h.1 rfl
  | _ => exact .pure fun _ h => h.2 nofun

theorem cleanupDedupState_live {c : WorkflowConsumer} {message : WorkflowEnvelope}
    (acquired : Bool) :
    Triple (Live own on) (c.cleanupDedupState acquired message) (fun _ => Live own on)
      (fun _ => Lost own on) := by
  unfold WorkflowConsumer.cleanupDedupState
  split
  · refine .bind (swallow_live (perform_stopped rfl (fun _ => rfl) fun exc => ?_)) fun _ =>
      swallow_live (perform_stopped rfl (fun _ => rfl) fun exc => ?_)
    · cases exc <;> simp [loses]
    · cases exc <;> simp [loses]
  · exact .pure fun _ => id

theorem cleanupDedupState_lost {c : WorkflowConsumer} {message : WorkflowEnvelope}
    (acquired : Bool) :
    Triple (Lost own on) (c.cleanupDedupState acquired message) (fun _ => Lost own on)
      (fun _ => Lost own on) := by
  have avoids : Avoids Op.gauges (c.cleanupDedupState acquired message) := by
    unfold WorkflowConsumer.cleanupDedupState
    split
    · exact (swallow_avoids (.perform rfl)).bind fun _ => swallow_avoids (.perform rfl)
    · exact .pure _
  exact avoids _ fun _ _ h plain => h.keep plain

/-- The decrement, where there are metrics. -/
theorem record_done {s : Settings} {l : MetricLabels} {outcome : Outcome} :
    Triple (Live l.workerLabels s.metrics) (s.record (.taskFinished l outcome)) (fun _ => Done)
      (fun _ => Done) := by
  unfold Settings.record
  split
  · next on =>
    rw [on]
    refine .bind (.attempt_perform fun t answer h => ?_) fun _ => .pure fun _ => id
    exact ⟨h.opened.finishes rfl, by simp [h.kept, loses]⟩
  · next off =>
    have off : s.metrics = false := by simpa using off
    exact .pure fun t h => ⟨h.opened.balanced_iff.mpr off, h.kept⟩

/-- Where the handler has left the stage. -/
def Left (own : WorkerLabels) (on : Bool) : Except Exc Unit → List Event → Prop
  | .error .cancelled => Lost own on
  | _ => Live own on

/-- The `finally` block. -/
theorem finish_counted {c : WorkflowConsumer} {d : Delivery} {message : WorkflowEnvelope}
    (acquired : Bool) (ended : Except Exc Unit) :
    Triple (Left (c.labels d).workerLabels c.metrics ended)
      (do c.cleanupDedupState acquired message
          c.recordOutcome (c.labels d) ended
          c.releaseStageLease message)
      (fun _ t => Counted t ∧ (ended ≠ .error .cancelled → Done t)) (fun _ => Counted) := by
  have release := c.releaseStageLease_avoids critical_of_routine message
  have lost : Triple (Lost (c.labels d).workerLabels c.metrics)
      (do c.cleanupDedupState acquired message
          c.recordOutcome (c.labels d) (.error .cancelled : Except Exc Unit)
          c.releaseStageLease message)
      (fun _ => Counted) (fun _ => Counted) :=
    .bind ((cleanupDedupState_lost acquired).conseq (fun _ => id) (fun _ _ => id)
      fun _ _ h => h.counted) fun _ => .bind (.pure fun _ => id) fun _ =>
        (Harmless.lost release).conseq (fun _ => id) (fun _ _ h => h.counted)
          fun _ _ h => h.counted
  have live (outcome : Outcome) : Triple (Live (c.labels d).workerLabels c.metrics)
      (do c.cleanupDedupState acquired message
          c.record (.taskFinished (c.labels d) outcome)
          c.releaseStageLease message)
      (fun _ => Done) (fun _ => Counted) :=
    .bind ((cleanupDedupState_live acquired).conseq (fun _ => id) (fun _ _ => id)
      fun _ _ h => h.counted) fun _ => .bind (record_done.conseq (fun _ => id) (fun _ _ => id)
        fun _ _ h => h.counted) fun _ => (Harmless.done release).conseq (fun _ => id)
          (fun _ _ => id) fun _ _ h => h.counted
  cases ended with
  | ok _ =>
    exact (live .completed).conseq (fun _ => id) (fun _ _ h => ⟨h.counted, fun _ => h⟩)
      fun _ _ => id
  | error exc =>
    cases exc with
    | cancelled =>
      exact lost.conseq (fun _ => id) (fun _ _ h => ⟨h, fun other => (other rfl).elim⟩)
        fun _ _ => id
    | _ =>
      exact (live .failed).conseq (fun _ => id) (fun _ _ h => ⟨h.counted, fun _ => h⟩)
        fun _ _ => id

theorem Left.loses {ended : Except Exc Unit} {scope : WorkflowContext}
    {timeoutSeconds : Option Python.Float} (h : Live own on t) :
    Left own on ended (t ++ [⟨.workflowHandler scope timeoutSeconds, ended⟩]) := by
  cases ended with
  | ok _ => exact h.keep rfl rfl
  | error exc =>
    cases exc with
    | cancelled => exact h.lose rfl rfl
    | _ => exact h.keep rfl rfl

end Stage

namespace WorkflowConsumer

variable (c : WorkflowConsumer) (d : Delivery)

theorem runStage_counted (message : WorkflowEnvelope) (context : WorkflowContext)
    (acquired : Bool) :
    Triple (Live (c.labels d).workerLabels c.metrics) (c.runStage d message context acquired)
      (fun _ => Done) (fun _ => Counted) := by
  unfold runStage
  refine .bind (.attempt_perform (Q := Left (c.labels d).workerLabels c.metrics)
    fun t answer h => Left.loses h) fun ended => ?_
  have body : Triple (Left (c.labels d).workerLabels c.metrics ended)
      (onException ended (pure none) fun exc => do
        let acked ← c.onHandlerFailed d message context exc
        return some acked)
      (fun _ t => ended ≠ .error .cancelled ∧ Left (c.labels d).workerLabels c.metrics ended t)
      (fun _ => Left (c.labels d).workerLabels c.metrics ended) := by
    have failed (exc : Exc) : Harmless (do
        let acked ← c.onHandlerFailed d message context exc
        return some acked) :=
      (c.onHandlerFailed_avoids d critical_of_routine message context exc).bind fun _ => .pure _
    cases ended with
    | ok _ => exact .pure fun _ h => ⟨nofun, h⟩
    | error exc =>
      cases exc with
      | cancelled => exact .raise fun _ => id
      | _ => exact (failed _).live.conseq (fun _ => id) (fun _ _ h => ⟨nofun, h⟩) fun _ _ => id
  refine .tryFinally body (fun _ => .of_and fun sound => ?_) fun _ => ?_
  · exact (finish_counted acquired ended).conseq (fun _ => id) (fun _ _ h => h.2 sound)
      fun _ _ => id
  · exact (finish_counted acquired ended).conseq (fun _ => id) (fun _ _ h => h.1) fun _ _ => id

theorem recordTaskStarted_live (attempt : Int) :
    Triple Ready (c.recordTaskStarted (c.labels d) attempt)
      (fun _ => Live (c.labels d).workerLabels c.metrics) (fun _ => Counted) := by
  unfold Settings.recordTaskStarted
  split
  · next on =>
    split
    · rw [on]
      refine .bind (.attempt_perform fun t answer h => ?_) fun _ => .pure fun _ => id
      exact ⟨h.balanced.starts, by simp [starts], by simp [h.kept, loses]⟩
    · exact .raise fun _ h => h.counted
  · next off =>
    have off : c.metrics = false := by simpa using off
    rw [off]
    exact .pure fun t h => ⟨balanced_iff_opened.mp h.balanced, h.unstarted, h.kept⟩

theorem acquireStageLease_live (message : WorkflowEnvelope) (context : WorkflowContext) :
    Triple (Live (c.labels d).workerLabels c.metrics) (c.acquireStageLease message context)
      (fun _ => Live (c.labels d).workerLabels c.metrics) (fun _ => Counted) := by
  unfold acquireStageLease
  split
  · exact .pure fun _ => id
  · exact .perform (fun _ _ h => h.keep rfl rfl) fun _ _ h => (h.lose rfl rfl).counted

/-- From the start metric on. -/
theorem processStage_counted (message : WorkflowEnvelope) (context : WorkflowContext)
    (acquired : Bool) :
    Triple Ready (c.processStage d message context acquired)
      (fun _ => Counted) (fun _ => Counted) := by
  unfold processStage
  refine .bind (c.recordTaskStarted_live d _) fun _ => ?_
  refine .bind (c.acquireStageLease_live d message context) fun granted => ?_
  split
  · refine .bind (c.runStage_counted d message context acquired) fun acked => ?_
    split
    · exact .pure fun _ h => h.counted
    · have acks : Harmless (do
          c.emitObservation (.workflowStageAcked (c.subject d message))
          return true) :=
        (emitObservation_avoids _ rfl).bind fun _ => .pure _
      exact acks.done.conseq (fun _ => id) (fun _ _ h => h.counted) fun _ _ h => h.counted
  · have denied : Triple (Live (c.labels d).workerLabels c.metrics)
        (c.emitObservation (.workflowStageFailed (c.subject d message) "LeaseConflict"
          "Workflow message lease is already owned." true))
        (fun _ => Live (c.labels d).workerLabels c.metrics)
        (fun _ => Lost (c.labels d).workerLabels c.metrics) := by
      unfold Settings.emitObservation
      split
      · refine swallow_live (perform_stopped rfl (fun _ => rfl) fun exc => ?_)
        cases exc <;> simp [loses]
      · exact .pure fun _ => id
    refine .bind (denied.conseq (fun _ => id) (fun _ _ => id) fun _ _ h => h.counted) fun _ => ?_
    have rejects : Triple (Live (c.labels d).workerLabels c.metrics) (reject true)
        (fun _ => Live (c.labels d).workerLabels c.metrics) (fun _ => Counted) :=
      .perform (fun _ _ h => h.keep rfl rfl) fun _ _ h => (h.lose rfl rfl).counted
    refine .bind rejects fun _ => ?_
    refine .bind ((cleanupDedupState_live acquired).conseq (fun _ => id) (fun _ _ => id)
      fun _ _ h => h.counted) fun _ => ?_
    exact .bind (record_done.conseq (fun _ => id) (fun _ _ => id) fun _ _ h => h.counted)
      fun _ => .pure fun _ h => h.counted

theorem processDeduplicated_counted (message : WorkflowEnvelope) (context : WorkflowContext) :
    Triple Ready (c.processDeduplicated d message context)
      (fun _ => Counted) (fun _ => Counted) := by
  unfold processDeduplicated
  split
  · exact c.processStage_counted d message context false
  · split
    · exact .raise fun _ h => h.counted
    · refine .bind (.perform (fun t a h => h.keep rfl rfl) fun t exc h =>
        (h.toIdle.plain rfl).counted) fun granted => ?_
      split
      · have marked : Triple Ready (perform (.markInflight (c.dedupScope message)))
            (fun _ => Ready) (fun _ => Ready) :=
          .perform (fun t a h => h.keep rfl rfl) fun t exc h => h.keep rfl rfl
        refine .bind (.tryCatch marked fun exc => ?_) fun _ =>
          c.processStage_counted d message context true
        have released : Triple Ready
            (do perform (.releaseDedup (c.dedupScope message)); Proc.raise exc : Proc Unit)
            (fun _ => Ready) (fun _ => Counted) :=
          .bind (Q := fun _ => Idle) (.perform (fun t a h => h.toIdle.plain rfl)
            fun t _ h => (h.toIdle.plain rfl).counted) fun _ => .raise fun t h => h.counted
        cases exc with
        | cancelled => exact .raise fun _ h => h.counted
        | _ => exact released
      · exact (Harmless.idle (c.refuse_avoids d critical_of_routine _ _ _)).conseq
          (fun _ h => h.toIdle) (fun _ _ h => h.counted) fun _ _ h => h.counted

/-- `_handle_message_impl`. -/
theorem handleMessageImpl_counted :
    Triple (· = []) (c.handleMessageImpl d) (fun _ => Counted) (fun _ => Counted) := by
  have start (t : List Event) (h : t = []) : Ready t := by
    subst h
    exact ⟨⟨fun _ => rfl, rfl⟩, rfl⟩
  have refused (taskId : Option String) (reason : String) (exceptionType : Option String) :
      Triple (· = []) (c.refuse d taskId reason exceptionType) (fun _ => Counted)
        (fun _ => Counted) :=
    (Harmless.idle (c.refuse_avoids d critical_of_routine _ _ _)).conseq
      (fun t h => (start t h).toIdle) (fun _ _ h => h.counted) fun _ _ h => h.counted
  unfold handleMessageImpl
  split
  · exact refused _ _ _
  · simp only
    split
    · exact refused _ _ _
    · next message _ =>
      split
      · exact refused _ _ _
      · have receives : Harmless (c.emitObservation (.workflowMessageReceived (c.subject d message)
            d.metadata.deliveryTag d.metadata.redelivered)) :=
          emitObservation_avoids _ rfl
        refine .bind (receives.ready.conseq start (fun _ _ => id) fun _ _ h => h.counted)
          fun _ => ?_
        exact .bind (.ofExcept (fun _ _ _ => id) fun _ _ _ h => h.counted) fun _ =>
          c.processDeduplicated_counted d _ _

end WorkflowConsumer

/-! ## All calls together -/

/-- A field that is a text, `None` or missing. -/
def optionalText (fields : Fields Value) (key : String) : Option (Option String) :=
  match fields.lookup key with
  | none | some .none => some none
  | some (.str s) => some (some s)
  | _ => none

/-- `TaskEnvelope.model_validate` takes dictionaries whose `task_type` is a text or `None`. -/
structure Validates (codec : Codec) : Prop where
  taskType : ∀ {fresh v task}, codec.validateTask fresh v = some task →
    ∃ fields, v = .dict fields ∧ optionalText fields "task_type" = some task.taskType

theorem strip_empty : strip "" = "" := rfl

theorem label_nonEmpty_strip (s : String) : label (nonEmpty (strip s)) = label (some s) := by
  unfold label nonEmpty
  by_cases blank : strip s = ""
  · simp [blank, strip_empty]
  · simp [blank, Names.strip_strip]

/-- A task is started and finished with the same labels. -/
theorem label_taskType {codec : Codec} (laws : Validates codec) {fresh : Fresh} {v : Value}
    {task : TaskEnvelope} (valid : codec.validateTask fresh v = some task) :
    label (coerceTaskType codec.text v) = label task.taskType := by
  obtain ⟨fields, rfl, typed⟩ := laws.taskType valid
  unfold optionalText at typed
  change label (nonEmpty (codec.text.stripped (fields.lookup "task_type"))) = _
  split at typed
  · next missing =>
    rw [missing, ← Option.some.inj typed]
    simp [Text.stripped, strip_empty, nonEmpty]
  · next null =>
    rw [null, ← Option.some.inj typed]
    simp [Text.stripped, Value.truthy, strip_empty, nonEmpty]
  · next s text =>
    have stripped : codec.text.stripped (some (.str s)) = strip s := by
      by_cases blank : s = ""
      · simp [Text.stripped, Value.truthy, blank]
      · simp [Text.stripped, Value.truthy, blank, codec.text.str_str]
    rw [text, stripped, label_nonEmpty_strip, Option.some.inj typed]
  · cases typed

/-- A call of `TaskConsumer._process_task` or of `WorkflowConsumer._handle_message_impl`. -/
inductive Call where
  | task (c : TaskConsumer) (d : Delivery) (payload : Value) (task : TaskEnvelope)
      (context : TaskContext)
  | stage (c : WorkflowConsumer) (d : Delivery)

def Call.codec : Call → Codec
  | .task c .. => c.codec
  | .stage c _ => c.codec

/-- The events of the call in one of its runs. A task is called with what it has been validated
from. -/
def Call.Awaits : Call → List Event → Prop
  | .task c d payload envelope context, es =>
    c.codec.validateTask d.message.fresh payload = some envelope ∧
      c.makeTaskContext d envelope payload = .ok context ∧
      ∃ res, Run (c.processTask d envelope context) es res
  | .stage c d, es => ∃ res, Run (c.handleMessageImpl d) es res

def Call.Drifts : Call → List Event → Prop
  | .task c .., es => c.metrics = true ∧ Abandons es
  | .stage .., es => es.any starts = true ∧ es.any loses = true

theorem rawPayload_of_makeTaskContext {c : TaskConsumer} {d : Delivery} {task : TaskEnvelope}
    {payload : Value} {context : TaskContext} (h : c.makeTaskContext d task payload = .ok context) :
    context.rawPayload = payload := by
  unfold TaskConsumer.makeTaskContext at h
  obtain ⟨batchIndex, -, h⟩ := Failing.bind_ok.mp h
  obtain ⟨batchSize, -, h⟩ := Failing.bind_ok.mp h
  obtain ⟨count, -, h⟩ := Failing.bind_ok.mp h
  exact Except.ok.inj h ▸ rfl

theorem Call.Awaits.balanced_iff {call : Call} {es : List Event} (laws : Validates call.codec)
    (awaits : call.Awaits es) : Balanced es ↔ ¬call.Drifts es := by
  have told {P : List Event → Prop} {α : Type} {x : Proc α} {res : Except Exc α}
      (judged : Triple (· = []) x (fun _ => P) (fun _ => P)) (run : Run x es res) : P es := by
    have := judged [] es res rfl run
    cases res <;> exact this
  cases call with
  | task c d payload task context =>
    obtain ⟨valid, made, res, run⟩ := awaits
    have same := label_taskType laws valid
    rw [← rawPayload_of_makeTaskContext made] at same
    exact told (c.processTask_told d task context same) run
  | stage c d =>
    obtain ⟨res, run⟩ := awaits
    exact told (c.handleMessageImpl_counted d) run

theorem activeTasks_flatten {runs : List (List Event)} (h : ∀ es ∈ runs, Balanced es)
    (labels : WorkerLabels) : activeTasks labels runs.flatten = 0 := by
  induction runs with
  | nil => rfl
  | cons es runs ih =>
    have here := h es List.mem_cons_self labels
    have rest := ih fun es hes => h es (List.mem_cons_of_mem _ hes)
    unfold activeTasks increments decrements at *
    rw [List.flatten_cons, List.countP_append, List.countP_append]
    omega

/-- Each call increments and decrements the gauge equally often unless it drifts, and if none does,
the gauge is zero when they have all ended, however they were interleaved. -/
theorem active_tasks_balance (calls : List (Call × List Event))
    (laws : ∀ p ∈ calls, Validates p.1.codec) (awaited : ∀ p ∈ calls, p.1.Awaits p.2) :
    (∀ p ∈ calls, Balanced p.2 ↔ ¬p.1.Drifts p.2) ∧
      ((∀ p ∈ calls, ¬p.1.Drifts p.2) → ∀ es, es.Perm (calls.map Prod.snd).flatten →
        ∀ labels, activeTasks labels es = 0) := by
  have each : ∀ p ∈ calls, Balanced p.2 ↔ ¬p.1.Drifts p.2 := fun p hp =>
    (awaited p hp).balanced_iff (laws p hp)
  refine ⟨each, fun steady es interleaved labels => ?_⟩
  have sum : activeTasks labels es = activeTasks labels (calls.map Prod.snd).flatten := by
    unfold activeTasks increments decrements
    rw [interleaved.countP_eq, interleaved.countP_eq]
  rw [sum]
  refine activeTasks_flatten (fun es hes => ?_) labels
  obtain ⟨p, hp, rfl⟩ := List.mem_map.mp hes
  exact (each p hp).mpr (steady p hp)

theorem twoTaskCodec_validates : Validates twoTaskCodec where
  taskType {fresh v task} h := by
    unfold twoTaskCodec validateTaskFields at h
    simp only at h
    split at h
    · next fields =>
      split at h
      · next taskId taskType correlationId _ typed _ =>
        obtain rfl := Option.some.inj h
        refine ⟨fields, rfl, ?_⟩
        have found := textAt_eq_some typed
        unfold optionalText
        rw [found]
        cases taskType <;> rfl
      · cases h
    · cases h

def meteredWorker : TaskConsumer := { sharedWorker with metrics := true }

def meteredStage : WorkflowConsumer :=
  { dedupWorker with metrics := true, stage := ⟨"ocr", [], none, none, none, []⟩ }

/-- The stage codec validates no tasks. -/
theorem stageCodec_validates : Validates stageCodec where
  taskType h := by cases h

def plainEnvelope : TaskEnvelope := ⟨"t", none, none, .dict plainTask⟩

def plainContext : TaskContext where
  consumerName := "worker"
  rawPayload := .dict plainTask
  correlationId := some "b"
  deliveryTag := some 1
  redelivered := false
  taskId := "t"
  retryAttempt := 0
  maxRetries := some 3
  sourceQueueName := "tasks"
  headers _ := none
  manualRetryCount := 0
  manualRetryPreviousTaskType := none
  manualRetrySourceConsumer := none
  manualRetryReason := none

def plainCall : Call :=
  .task meteredWorker (batchDelivery plainTaskText) (.dict plainTask) plainEnvelope plainContext

/-- Everything is granted but for the answers of the handler and the lease store. -/
def answering (handled : Except Exc (Option ManualRetryRequest)) (leased : Except Exc Bool) :
    (op : Op) → Except Exc op.Reply
  | .handler _ => handled
  | .acquireLease _ => leased
  | op => granting op

def plainRun (handled : Except Exc (Option ManualRetryRequest)) : List Event :=
  ((meteredWorker.processTask (batchDelivery plainTaskText) plainEnvelope plainContext).exec
    (answering handled (.ok true))).1

def plainStageRun (leased : Except Exc Bool) : List Event :=
  ((meteredStage.handleMessageImpl (stageDelivery false)).exec (answering (.ok none) leased)).1

theorem plainRun_awaits (handled : Except Exc (Option ManualRetryRequest)) :
    plainCall.Awaits (plainRun handled) :=
  ⟨rfl, rfl, _, run_exec _ _⟩

theorem plainStageRun_awaits (leased : Except Exc Bool) :
    (Call.stage meteredStage (stageDelivery false)).Awaits (plainStageRun leased) :=
  ⟨_, run_exec _ _⟩

theorem plainCall_steady {es : List Event} (calm : ∀ e ∈ es, interrupts e = false) :
    ¬plainCall.Drifts es := by
  rintro ⟨-, first, e, rest, rfl, interrupted, -⟩
  rw [calm e (by simp)] at interrupted
  cases interrupted

theorem stage_steady {c : WorkflowConsumer} {d : Delivery} {es : List Event}
    (kept : es.any loses = false) : ¬(Call.stage c d).Drifts es := by
  rintro ⟨-, lost⟩
  rw [kept] at lost
  cases lost

/-- A task that its handler completes, and a stage. -/
theorem active_tasks_balance_completed :
    increments ⟨"none", "tasks", .task⟩ (plainRun (.ok none)) = 1 ∧ Balanced (plainRun (.ok none)) ∧
    increments ⟨"ocr", "ocr", .workflow⟩ (plainStageRun (.ok true)) = 1 ∧
    ∀ labels, activeTasks labels (plainRun (.ok none) ++ plainStageRun (.ok true)) = 0 := by
  have begun : increments ⟨"none", "tasks", .task⟩ (plainRun (.ok none)) = 1 := by decide +kernel
  have staged : increments ⟨"ocr", "ocr", .workflow⟩ (plainStageRun (.ok true)) = 1 := by
    decide +kernel
  have calm : ∀ e ∈ plainRun (.ok none), interrupts e = false := by decide +kernel
  have kept : (plainStageRun (.ok true)).any loses = false := by decide +kernel
  have awaited := plainRun_awaits (.ok none)
  have stageAwaited := plainStageRun_awaits (.ok true)
  generalize plainRun (.ok none) = task at *
  generalize plainStageRun (.ok true) = stage at *
  obtain ⟨each, all⟩ := active_tasks_balance
    [(plainCall, task), (.stage meteredStage (stageDelivery false), stage)]
    (by simpa using ⟨twoTaskCodec_validates, stageCodec_validates⟩)
    (by simpa using ⟨awaited, stageAwaited⟩)
  have steady : ∀ p ∈ [(plainCall, task), (.stage meteredStage (stageDelivery false), stage)],
      ¬p.1.Drifts p.2 := by
    simpa using ⟨plainCall_steady calm, stage_steady kept⟩
  refine ⟨begun, (each _ List.mem_cons_self).mpr (steady _ List.mem_cons_self), staged, ?_⟩
  exact all steady _ (.of_eq (congrArg (task ++ ·) (List.append_nil _).symm))

/-- The lease store raises before the `try` statement of the stage, and a handler is cancelled. -/
theorem unfinished_calls_stay_active :
    ((Call.stage meteredStage (stageDelivery false)).Awaits
        (plainStageRun (.error (.error "ConnectionError" ""))) ∧
      ¬Balanced (plainStageRun (.error (.error "ConnectionError" "")))) ∧
    plainCall.Awaits (plainRun (.error .cancelled)) ∧ ¬Balanced (plainRun (.error .cancelled)) := by
  refine ⟨⟨plainStageRun_awaits _, fun balanced => ?_⟩, plainRun_awaits _, fun balanced => ?_⟩
  · exact absurd (balanced ⟨"ocr", "ocr", .workflow⟩) (by decide +kernel)
  · exact absurd (balanced ⟨"none", "tasks", .task⟩) (by decide +kernel)

end Relayna.Consumer
