import Relayna.Consumer.ContractStore
import Relayna.Consumer.Routine
import Relayna.Contracts.Tabulated

/-!
# What a workflow message leaves behind in Redis

Between the acquisition of the dedup key and the `try` statement whose `finally` block releases
it, the consumer records a metric, asks for the lease and, where it does not get it, rejects the
message. An exception there leaves the key and the in-flight entry in place. So does an exception
of `EXPIRE` with the entry, which has been written by then: the clause that answers it releases
the key only. Nothing else leaks: after these places, and where they succeed, a release command
has been issued for whatever was acquired.
-/
namespace Relayna.Consumer

open Python Contracts Await

/-- The dedup keys and in-flight entries that have been acquired and for which no release has
been issued since. -/
structure Outstanding where
  keys : List String
  entries : List (String × String)
  deriving DecidableEq, Repr

def Outstanding.after (o : Outstanding) : StoreEvent → Outstanding
  | ⟨.redis (.setNx key _), .ok true⟩ => { o with keys := key :: o.keys }
  | ⟨.redis (.delete key), _⟩ => { o with keys := o.keys.filter (· ≠ key) }
  | ⟨.redis (.hset key field _), .ok _⟩ => { o with entries := (key, field) :: o.entries }
  | ⟨.redis (.hdel key field), _⟩ => { o with entries := o.entries.filter (· ≠ (key, field)) }
  | _ => o

def outstanding (es : List StoreEvent) : Outstanding := es.foldl Outstanding.after ⟨[], []⟩

/-- Somebody cancels the consumer. The cancellation of the heartbeat is its own. -/
def cancels : StoreEvent → Bool
  | ⟨.other .joinHeartbeat, _⟩ => false
  | ⟨_, .error .cancelled⟩ => true
  | _ => false

/-- The lease store, the requeueing reject or `EXPIRE` raises. -/
def spoils : StoreEvent → Bool
  | ⟨.other (.acquireLease _), .error _⟩ => true
  | ⟨.other (.reject true), .error _⟩ => true
  | ⟨.redis (.expire ..), .error _⟩ => true
  | _ => false

/-- An in-flight entry is written. -/
def marks : StoreEvent → Bool
  | ⟨.redis (.hset ..), .ok _⟩ => true
  | _ => false

/-- None of the three raises, and the attempt of a message that is marked can be measured. -/
structure Undisturbed (c : WorkflowConsumer) (d : Delivery) (es : List StoreEvent) : Prop where
  sound : ∀ e ∈ es, spoils e = false
  measurable : (∃ e ∈ es, marks e = true) → c.metrics = true →
    fitsFloat (max 0 d.metadata.retryAttempt)

/-! ## Runs by what they leave behind -/

structure Tally where
  outstanding : Outstanding
  spoiled : Bool
  marked : Bool

def Tally.start : Tally := ⟨⟨[], []⟩, false, false⟩

def Tally.after (s : Tally) (e : StoreEvent) : Tally :=
  ⟨s.outstanding.after e, s.spoiled || spoils e, s.marked || marks e⟩

def tally (es : List StoreEvent) : Tally := es.foldl Tally.after .start

theorem tally_append (es last : List StoreEvent) :
    tally (es ++ last) = last.foldl Tally.after (tally es) := List.foldl_append

theorem tally_eq (es : List StoreEvent) :
    tally es = ⟨outstanding es, es.any spoils, es.any marks⟩ := by
  induction es using List.reverseRecOn with
  | nil => rfl
  | append_singleton es e ih =>
    rw [tally_append, ih]
    simp [Tally.after, outstanding, List.foldl_append]

/-- Whatever the operations of `t` stand for, it adds up to `A` unless somebody cancels. -/
def Leaves (store : RedisWorkflowContractStore) (A : Tally → Prop) (t : List Event) : Prop :=
  ∀ es, Segments store.serve t es → (∀ e ∈ es, cancels e = false) → A (tally es)

variable {store : RedisWorkflowContractStore} {A B : Tally → Prop} {t : List Event}

theorem Leaves.imp (h : Leaves store A t) (imp : ∀ s, A s → B s) : Leaves store B t :=
  fun es segments calm => imp _ (h es segments calm)

theorem Leaves.snoc {op : Op} {answer : Except Exc op.Reply} (h : Leaves store A t)
    (step : ∀ last s, Run (store.serve op) last (.ok answer) → (∀ e ∈ last, cancels e = false) →
      A s → B (last.foldl Tally.after s)) : Leaves store B (t ++ [⟨op, answer⟩]) := by
  intro es segments calm
  obtain ⟨first, last, rfl, segments, run⟩ := Segments.snoc_iff.mp segments
  rw [tally_append]
  refine step last _ run (fun e he => calm e (List.mem_append_right _ he)) (h first segments ?_)
  exact fun e he => calm e (List.mem_append_left _ he)

/-- What a program leaves behind that starts with nothing. -/
theorem Leaves.of_run {α : Type} {x : Proc α} {r : Except Exc α} {es : List StoreEvent}
    (judged : Triple (Leaves store A) x (fun _ => Leaves store B) (fun _ => Leaves store B))
    (start : A .start) (run : Run x t r) (segments : Segments store.serve t es)
    (calm : ∀ e ∈ es, cancels e = false) : B (tally es) := by
  have nothing : Leaves store A [] := by
    intro es segments _
    rw [Segments.nil_iff.mp segments]
    exact start
  have ending := judged [] t r nothing run
  cases r with
  | ok a => exact ending es segments calm
  | error exc => exact ending es segments calm

/-- An operation of the consumer's own. -/
theorem Leaves.other {op : Op} {answer : Except Exc op.Reply} (h : Leaves store A t)
    (own : op.onContract = false) (step : ∀ s, cancels ⟨.other op, answer⟩ = false → A s →
      B (s.after ⟨.other op, answer⟩)) : Leaves store B (t ++ [⟨op, answer⟩]) := by
  refine h.snoc fun last s run calm hs => ?_
  rw [serve_other own] at run
  obtain rfl := run_serve_command run
  exact step s (calm _ (List.mem_singleton_self _)) hs

@[simp] theorem after_other (o : Outstanding) (op : Op) (answer : Except Exc op.Reply) :
    o.after ⟨.other op, answer⟩ = o := by
  cases answer <;> rfl

@[simp] theorem marks_other (op : Op) (answer : Except Exc op.Reply) :
    marks ⟨.other op, answer⟩ = false := by
  cases answer <;> rfl

/-- The operations that matter here. -/
def Op.touchy : Op → Bool
  | .acquireLease _ | .reject true => true
  | op => op.onContract

theorem onContract_of_touchy (op : Op) (neutral : op.touchy = false) : op.onContract = false := by
  cases op <;> first | rfl | simp [Op.touchy, Op.onContract] at neutral

theorem Leaves.neutral {e : Event} (h : Leaves store A t) (neutral : e.op.touchy = false) :
    Leaves store A (t ++ [e]) := by
  obtain ⟨op, answer⟩ := e
  refine h.other (onContract_of_touchy op neutral) fun s _ hs => ?_
  have same : s.after ⟨.other op, answer⟩ = s := by
    have spoil : spoils ⟨.other op, answer⟩ = false := by
      cases op with
      | reject requeue =>
        cases requeue with
        | true => simp [Op.touchy] at neutral
        | false => rfl
      | acquireLease => simp [Op.touchy] at neutral
      | _ => rfl
    simp [Tally.after, spoil]
  rwa [same]

/-! ## What the consumer does besides -/

section Neutral

variable (s : Settings) (c : WorkflowConsumer) (d : Delivery)

abbrev Neutral {α : Type} (x : Proc α) : Prop := Avoids Op.touchy x

theorem Neutral.leaves {α : Type} {x : Proc α} (h : Neutral x) (A : Tally → Prop) :
    Triple (Leaves store A) x (fun _ => Leaves store A) (fun _ => Leaves store A) :=
  h _ fun _ _ leaves neutral => leaves.neutral neutral

theorem Neutral.attempt_leaves {α : Type} {x : Proc α} (h : Neutral x) (A : Tally → Prop)
    {E : Exc → List Event → Prop} :
    Triple (Leaves store A) x.attempt (fun _ => Leaves store A) E := by
  refine (h.leaves A).attempt.conseq (fun _ => id) (fun r t ht => ?_) fun _ _ => id
  cases r with
  | ok a => exact ht
  | error exc => exact ht

theorem touchy_of_routine (op : Op) (routine : op.routine = true) : op.touchy = false := by
  cases op with
  | reject requeue =>
    cases requeue with
    | true => cases routine
    | false => rfl
  | acquireLease | acquireDedup | markInflight | clearInflight | releaseDedup => cases routine
  | _ => rfl

theorem note_leaves {op : Op} (h : op.touchy = false) (A : Tally → Prop)
    {E : Exc → List Event → Prop} :
    Triple (Leaves store A) (note op) (fun _ => Leaves store A) E :=
  .bind (Neutral.attempt_leaves (.perform h) A) fun _ => .pure fun _ => id

theorem emitObservation_neutral (observation : Observation) :
    Neutral (s.emitObservation observation) := emitObservation_avoids s rfl

theorem record_neutral (metric : Metric) : Neutral (s.record metric) := record_avoids s rfl

theorem recordOutcome_neutral {α : Type} (labels : MetricLabels) (ended : Except Exc α) :
    Neutral (s.recordOutcome labels ended) := by
  unfold Settings.recordOutcome
  split
  · exact record_neutral s _
  · exact .pure _
  · exact record_neutral s _

theorem refuse_neutral (taskId : Option String) (reason : String)
    (exceptionType : Option String) : Neutral (c.refuse d taskId reason exceptionType) :=
  c.refuse_avoids d touchy_of_routine taskId reason exceptionType

theorem onHandlerFailed_neutral (message : WorkflowEnvelope) (context : WorkflowContext)
    (exc : Exc) : Neutral (c.onHandlerFailed d message context exc) :=
  c.onHandlerFailed_avoids d touchy_of_routine message context exc

theorem releaseStageLease_neutral (message : WorkflowEnvelope) :
    Neutral (c.releaseStageLease message) :=
  c.releaseStageLease_avoids touchy_of_routine message

end Neutral

/-! ## The dedup key and the in-flight entry -/

section Contract

variable (store) (scope : DedupScope)

def Tally.clear (s : Tally) : Tally :=
  { s with outstanding := { s.outstanding with
      entries := s.outstanding.entries.filter
        (· ≠ (store.inflightKey scope, store.buildDedupSignature scope)) } }

def Tally.release (s : Tally) : Tally :=
  { s with outstanding := { s.outstanding with
      keys := s.outstanding.keys.filter (· ≠ store.dedupKey scope) } }

/-- The key is held. -/
def held : Tally := ⟨⟨[store.dedupKey scope], []⟩, false, false⟩

/-- The key is held and the entry has been written, by a run that has been spoiled or not. -/
def inflight (spoiled : Bool) : Tally :=
  ⟨⟨[store.dedupKey scope], [(store.inflightKey scope, store.buildDedupSignature scope)]⟩,
    spoiled, true⟩

variable {store scope}

theorem acquireDedup_leaves :
    Triple (Leaves store (· = .start)) (perform (.acquireDedup scope))
      (fun (granted : Bool) =>
        Leaves store (· = if granted then held store scope else .start))
      (fun _ => Leaves store (· = .start)) := by
  refine .perform (fun t granted h => h.snoc fun last s run _ hs => ?_)
    fun t exc h => h.snoc fun last s run _ hs => ?_
  · obtain rfl := run_serve_command run
    subst hs
    cases granted <;> rfl
  · obtain rfl := run_serve_command run
    subst hs
    rfl

theorem markInflight_leaves :
    Triple (Leaves store (· = held store scope)) (perform (.markInflight scope))
      (fun _ => Leaves store (· = inflight store scope false))
      (fun exc => Leaves store fun s => exc ≠ .cancelled ∧
        (s = held store scope ∨ s = inflight store scope true)) := by
  refine .perform (fun t _ h => h.snoc fun last s run calm hs => ?_)
    fun t exc h => h.snoc fun last s run calm hs => ?_
  · obtain ⟨exc, same, -⟩ | ⟨done, rfl, ⟨-, expired⟩ | ⟨exc, -, -, same, -⟩⟩ :=
      run_serve_markInflight run
    · cases same
    · subst hs
      have kept : ∀ done : List StoreEvent,
          (∀ e ∈ done, ∃ key seconds, e = ⟨.redis (.expire key seconds), .ok ()⟩) →
          done.foldl Tally.after (inflight store scope false) = inflight store scope false := by
        intro done expired
        induction done with
        | nil => rfl
        | cons e done ih =>
          obtain ⟨key, seconds, rfl⟩ := expired e List.mem_cons_self
          exact ih fun e he => expired e (List.mem_cons_of_mem _ he)
      exact kept done expired
    · cases same
  · obtain ⟨exc', same, rfl⟩ | ⟨done, rfl, ⟨same, -⟩ | ⟨exc', key, seconds, same, rfl⟩⟩ :=
      run_serve_markInflight run
    · obtain rfl := Except.error.inj same
      subst hs
      refine ⟨?_, Or.inl rfl⟩
      rintro rfl
      exact Bool.noConfusion (calm _ (List.mem_singleton_self _))
    · cases same
    · obtain rfl := Except.error.inj same
      subst hs
      refine ⟨?_, Or.inr rfl⟩
      rintro rfl
      exact Bool.noConfusion (calm _ (List.mem_cons_of_mem _ (List.mem_singleton_self _)))

/-- A command of which only the issue matters: its answer changes nothing. -/
theorem issue_leaves {op : Op} (step : ∀ last s answer, Run (store.serve op) last (.ok answer) →
      (∀ e ∈ last, cancels e = false) → A s →
        B (last.foldl Tally.after s) ∧ answer ≠ .error .cancelled) :
    Triple (Leaves store A) (perform op) (fun _ => Leaves store B)
      (fun exc => Leaves store fun s => exc ≠ .cancelled ∧ B s) := by
  refine .perform (fun t a h => h.snoc fun last s run calm hs => (step last s _ run calm hs).1)
    fun t exc h => h.snoc fun last s run calm hs => ?_
  obtain ⟨hB, other⟩ := step last s _ run calm hs
  exact ⟨fun same => other (same ▸ rfl), hB⟩

theorem not_cancelled {α : Type} {answer : Except Exc α} {e : StoreEvent}
    (h : answer = .error .cancelled → cancels e = true) (calm : cancels e = false) :
    answer ≠ .error .cancelled := by
  intro same
  rw [h same] at calm
  cases calm

theorem after_hdel (s : Tally) (answer : Except Exc Unit) :
    s.after ⟨.redis (.hdel (store.inflightKey scope) (store.buildDedupSignature scope)), answer⟩ =
      s.clear store scope := by
  cases answer <;> simp [Tally.after, Tally.clear, Outstanding.after, spoils, marks]

theorem after_delete (s : Tally) (answer : Except Exc Unit) :
    s.after ⟨.redis (.delete (store.dedupKey scope)), answer⟩ = s.release store scope := by
  cases answer <;> simp [Tally.after, Tally.release, Outstanding.after, spoils, marks]

theorem clearInflight_leaves (step : ∀ s, A s → B (s.clear store scope)) :
    Triple (Leaves store A) (perform (.clearInflight scope)) (fun _ => Leaves store B)
      (fun exc => Leaves store fun s => exc ≠ .cancelled ∧ B s) := by
  refine issue_leaves fun last s answer run calm hs => ?_
  obtain rfl := run_serve_command run
  refine ⟨?_, not_cancelled (fun same => ?_) (calm _ (List.mem_singleton_self _))⟩
  · exact (congrArg B (after_hdel s answer)).mpr (step s hs)
  · subst same
    rfl

theorem releaseDedup_leaves (step : ∀ s, A s → B (s.release store scope)) :
    Triple (Leaves store A) (perform (.releaseDedup scope)) (fun _ => Leaves store B)
      (fun exc => Leaves store fun s => exc ≠ .cancelled ∧ B s) := by
  refine issue_leaves fun last s answer run calm hs => ?_
  obtain rfl := run_serve_command run
  refine ⟨?_, not_cancelled (fun same => ?_) (calm _ (List.mem_singleton_self _))⟩
  · exact (congrArg B (after_delete s answer)).mpr (step s hs)
  · subst same
    rfl

/-- Only a cancellation passes. -/
theorem swallow_leaves {x : Proc Unit}
    (h : Triple (Leaves store A) x (fun _ => Leaves store B)
      (fun exc => Leaves store fun s => exc ≠ .cancelled ∧ B s)) :
    Triple (Leaves store A) (swallow x) (fun _ => Leaves store B)
      (fun _ => Leaves store fun _ => False) := by
  refine .tryCatch h fun exc => ?_
  cases exc with
  | cancelled => exact .raise fun t ht => ht.imp fun s hs => hs.1 rfl
  | _ => exact .pure fun t ht => ht.imp fun s hs => hs.2

/-- An observation raises only where somebody cancels. -/
theorem emitObservation_leaves (settings : Settings) (observation : Observation) :
    Triple (Leaves store A) (settings.emitObservation observation) (fun _ => Leaves store A)
      (fun _ => Leaves store fun _ => False) := by
  unfold Settings.emitObservation
  split
  · refine swallow_leaves (.perform (fun t _ h => h.neutral rfl) fun t exc h => ?_)
    refine h.other rfl fun s calm hs => ⟨?_, ?_⟩
    · rintro rfl
      cases calm
    · simpa [Tally.after, spoils] using hs
  · exact .pure fun _ => id

variable {c : WorkflowConsumer} {d : Delivery} {message : WorkflowEnvelope}

/-- The key and the entry have been released. -/
theorem cleanupDedupState_leaves {spoiled : Bool} :
    Triple (Leaves store (· = inflight store (c.dedupScope message) spoiled))
      (c.cleanupDedupState true message)
      (fun _ => Leaves store (· = ⟨⟨[], []⟩, spoiled, true⟩))
      (fun _ => Leaves store fun _ => False) := by
  unfold WorkflowConsumer.cleanupDedupState
  rw [if_pos rfl]
  refine .bind (swallow_leaves (clearInflight_leaves (B := fun s =>
    s = ⟨⟨[store.dedupKey (c.dedupScope message)], []⟩, spoiled, true⟩) ?_)) fun _ =>
      swallow_leaves (releaseDedup_leaves ?_)
  · rintro s rfl
    simp [inflight, Tally.clear]
  · rintro s rfl
    simp [Tally.release]

end Contract

/-! ## The consumer -/

section Consumer

variable {c : WorkflowConsumer} {d : Delivery} {message : WorkflowEnvelope}
  {context : WorkflowContext}

/-- Everything has been released exactly if nothing has spoiled the run. -/
def Squared (c : WorkflowConsumer) (d : Delivery) (s : Tally) : Prop :=
  s.outstanding = ⟨[], []⟩ ↔ s.spoiled = false ∧ (s.marked = true → c.metrics = true →
    fitsFloat (max 0 d.metadata.retryAttempt))

theorem squared_start (s : Tally) (h : s = .start) : Squared c d s := by
  subst h
  simp [Squared, Tally.start]

theorem squared_released (fits : c.metrics = true → fitsFloat (max 0 d.metadata.retryAttempt))
    (s : Tally) (h : s = ⟨⟨[], []⟩, false, true⟩) : Squared c d s := by
  subst h
  simpa [Squared] using fits

theorem squared_spoiled {scope : DedupScope} : Squared c d (inflight store scope true) := by
  simp [Squared, inflight]

/-- The `finally` block. -/
theorem finish_leaves {α : Type} (fits : c.metrics = true →
    fitsFloat (max 0 d.metadata.retryAttempt)) (ended : Except Exc α) :
    Triple (Leaves store (· = inflight store (c.dedupScope message) false))
      (do c.cleanupDedupState true message
          c.recordOutcome (c.labels d) ended
          c.releaseStageLease message)
      (fun _ => Leaves store (· = ⟨⟨[], []⟩, false, true⟩))
      (fun _ => Leaves store (Squared c d)) := by
  refine .bind (cleanupDedupState_leaves.conseq (fun _ => id) (fun _ _ => id)
    fun _ t h => h.imp fun _ => False.elim) fun _ => ?_
  have neutral : Neutral (do
      c.recordOutcome (c.labels d) ended
      c.releaseStageLease message) :=
    (recordOutcome_neutral _ _ _).bind fun _ => releaseStageLease_neutral _ _
  exact (neutral.leaves _).conseq (fun _ => id) (fun _ _ => id)
    fun _ t h => h.imp (squared_released fits)

theorem runStage_leaves (fits : c.metrics = true →
    fitsFloat (max 0 d.metadata.retryAttempt)) :
    Triple (Leaves store (· = inflight store (c.dedupScope message) false))
      (c.runStage d message context true)
      (fun _ => Leaves store (· = ⟨⟨[], []⟩, false, true⟩))
      (fun _ => Leaves store (Squared c d)) := by
  unfold WorkflowConsumer.runStage
  have handler : Neutral (perform (.workflowHandler context c.stage.timeoutSeconds)) :=
    .perform rfl
  refine .bind (handler.attempt_leaves _) fun ended => ?_
  have body : Neutral (onException ended (pure none) fun exc => do
      let acked ← c.onHandlerFailed d message context exc
      return some acked) := by
    unfold onException
    split
    · exact .pure _
    · exact .raise _
    · exact (onHandlerFailed_neutral _ _ _ _ _).bind fun _ => .pure _
  refine .tryFinally (body.leaves _) (fun _ => finish_leaves fits ended) fun _ => ?_
  exact (finish_leaves fits ended).conseq (fun _ => id) (fun _ t h => h.imp (squared_released fits))
    fun _ _ => id

theorem recordTaskStarted_leaves :
    Triple (Leaves store (· = inflight store (c.dedupScope message) false))
      (c.recordTaskStarted (c.labels d) d.metadata.retryAttempt)
      (fun _ t => (c.metrics = true → fitsFloat (max 0 d.metadata.retryAttempt)) ∧
        Leaves store (· = inflight store (c.dedupScope message) false) t)
      (fun _ => Leaves store (Squared c d)) := by
  unfold Settings.recordTaskStarted
  split
  · rename_i metrics
    split
    · rename_i fits
      exact (note_leaves rfl _).conseq (fun _ => id) (fun _ t h => ⟨fun _ => fits, h⟩)
        fun _ _ => id
    · rename_i unfit
      refine .raise fun t h => h.imp ?_
      rintro s rfl
      simp [Squared, inflight, metrics, unfit]
  · rename_i none
    exact .pure fun t h => ⟨fun metrics => absurd metrics none, h⟩

theorem acquireStageLease_leaves :
    Triple (Leaves store (· = inflight store (c.dedupScope message) false))
      (c.acquireStageLease message context)
      (fun _ => Leaves store (· = inflight store (c.dedupScope message) false))
      (fun _ => Leaves store (Squared c d)) := by
  unfold WorkflowConsumer.acquireStageLease
  split
  · exact .pure fun _ => id
  · refine .perform (fun t _ h => h.other rfl ?_) fun t exc h => h.other rfl ?_
    · rintro s - rfl
      rfl
    · rintro s - rfl
      exact squared_spoiled

/-- The lease is somebody else's. -/
theorem reject_leaves :
    Triple (Leaves store (· = inflight store (c.dedupScope message) false)) (reject true)
      (fun _ => Leaves store (· = inflight store (c.dedupScope message) false))
      (fun _ => Leaves store (Squared c d)) := by
  refine .perform (fun t _ h => h.other rfl ?_) fun t exc h => h.other rfl ?_
  · rintro s - rfl
    rfl
  · rintro s - rfl
    exact squared_spoiled

/-- From the start metric on, with the key and the entry in place. -/
theorem processStage_leaves (attempt : context.retryAttempt = d.metadata.retryAttempt) :
    Triple (Leaves store (· = inflight store (c.dedupScope message) false))
      (c.processStage d message context true) (fun _ => Leaves store (Squared c d))
      (fun _ => Leaves store (Squared c d)) := by
  unfold WorkflowConsumer.processStage
  rw [attempt]
  refine .bind recordTaskStarted_leaves fun _ => .of_and fun fits => ?_
  refine .bind acquireStageLease_leaves fun granted => ?_
  split
  · refine .bind (runStage_leaves fits) fun acked => ?_
    split
    · exact .pure fun t h => h.imp (squared_released fits)
    · have neutral : Neutral (do
          c.emitObservation (.workflowStageAcked (c.subject d message))
          return true) :=
        (emitObservation_neutral _ _).bind fun _ => .pure _
      exact (neutral.leaves _).conseq (fun _ => id) (fun _ t h => h.imp (squared_released fits))
        fun _ t h => h.imp (squared_released fits)
  · refine .bind ((emitObservation_leaves _ _).conseq (fun _ => id) (fun _ _ => id)
      fun _ t h => h.imp fun _ => False.elim) fun _ => ?_
    refine .bind reject_leaves fun _ => ?_
    refine .bind (cleanupDedupState_leaves.conseq (fun _ => id) (fun _ _ => id)
      fun _ t h => h.imp fun _ => False.elim) fun _ => ?_
    have neutral : Neutral (do
        c.record (.taskFinished (c.labels d) .failed)
        return false) :=
      (record_neutral _ _).bind fun _ => .pure _
    exact (neutral.leaves _).conseq (fun _ => id) (fun _ t h => h.imp (squared_released fits))
      fun _ t h => h.imp (squared_released fits)

theorem processDeduplicated_leaves (attempt : context.retryAttempt = d.metadata.retryAttempt)
    (dedup : c.stage.dedupKeyFields ≠ []) :
    Triple (Leaves store (· = .start)) (c.processDeduplicated d message context)
      (fun _ => Leaves store (Squared c d)) (fun _ => Leaves store (Squared c d)) := by
  unfold WorkflowConsumer.processDeduplicated
  rw [if_neg dedup]
  split
  · exact .raise fun t h => h.imp squared_start
  · refine .bind (acquireDedup_leaves.conseq (fun _ => id) (fun _ _ => id)
      fun _ t h => h.imp squared_start) fun granted => ?_
    cases granted with
    | true =>
      refine .bind (.tryCatch (Q := fun _ => Leaves store
        (· = inflight store (c.dedupScope message) false)) markInflight_leaves fun exc => ?_)
        fun _ => processStage_leaves attempt
      cases exc with
      | cancelled => exact .raise fun t h => h.imp fun s hs => absurd rfl hs.1
      | _ =>
        refine .bind ((releaseDedup_leaves (B := Squared c d) ?_).conseq
          (fun t h => h.imp fun s hs => hs.2) (fun _ _ => id) fun _ t h => h.imp fun s hs => hs.2)
          fun _ => .raise fun _ => id
        rintro s (rfl | rfl)
        · simp [Squared, held, Tally.release]
        · simp [Squared, inflight, Tally.release]
    | false =>
      exact ((refuse_neutral c d _ _ _).leaves _).conseq (fun _ h => h)
        (fun _ t h => h.imp squared_start) fun _ t h => h.imp squared_start

/-- What a stage awaits besides the cleanup is the lease, the requeueing reject and neutral. -/
theorem processStage_avoids {bad : Op → Bool} {acquired : Bool}
    (good : ∀ op : Op, op.touchy = false → bad op = false)
    (lease : ∀ request, bad (.acquireLease request) = false) (requeue : bad (.reject true) = false)
    (cleanup : Avoids bad (c.cleanupDedupState acquired message)) :
    Avoids bad (c.processStage d message context acquired) := by
  unfold WorkflowConsumer.processStage
  refine .bind ?_ fun _ => .bind ?_ fun granted => ?_
  · unfold Settings.recordTaskStarted
    split
    · split
      · exact note_avoids (good _ rfl)
      · exact .raise _
    · exact .pure _
  · unfold WorkflowConsumer.acquireStageLease
    split
    · exact .pure _
    · exact .perform (lease _)
  · split
    · refine .bind ?_ fun acked => ?_
      · unfold WorkflowConsumer.runStage
        refine .bind (Avoids.attempt (.perform (good _ rfl))) fun ended =>
          .tryFinally ?_ fun _ => ?_
        · unfold onException
          split
          · exact .pure _
          · exact .raise _
          · exact ((onHandlerFailed_neutral _ _ _ _ _).mono good).bind fun _ => .pure _
        · refine cleanup.bind fun _ => ?_
          exact ((recordOutcome_neutral _ _ _).mono good).bind fun _ =>
            (releaseStageLease_neutral _ _).mono good
      · split
        · exact .pure _
        · exact ((emitObservation_neutral _ _).mono good).bind fun _ => .pure _
    · exact ((emitObservation_neutral _ _).mono good).bind fun _ => (Avoids.perform requeue).bind
        fun _ => cleanup.bind fun _ => ((record_neutral _ _).mono good).bind fun _ => .pure _

/-- What comes before the dedup key is neutral. -/
theorem handleMessageImpl_triple {P R : List Event → Prop} (done : ∀ t, P t → R t)
    (stable : ∀ t e, P t → Op.touchy e.op = false → P (t ++ [e]))
    (process : ∀ message rawPayload, Triple P
      (c.processDeduplicated d message (c.makeContext d message rawPayload))
      (fun _ => R) (fun _ => R)) :
    Triple P (c.handleMessageImpl d) (fun _ => R) (fun _ => R) := by
  have refused : ∀ taskId reason exceptionType,
      Triple P (c.refuse d taskId reason exceptionType) (fun _ => R) (fun _ => R) := by
    intro taskId reason exceptionType
    exact (refuse_neutral c d taskId reason exceptionType P stable).conseq (fun _ => id)
      (fun _ => done) fun _ => done
  unfold WorkflowConsumer.handleMessageImpl
  split
  · exact refused _ _ _
  · simp only
    split
    · exact refused _ _ _
    · split
      · exact refused _ _ _
      · refine .bind ((emitObservation_neutral _ _ P stable).conseq (fun _ => id) (fun _ _ => id)
          fun _ => done) fun _ => ?_
        exact .bind (.ofExcept (fun _ _ _ => id) fun _ t _ => done t) fun _ => process _ _

/-- Everything that the handling of a message has acquired is released, whatever raises, exactly
if the stage has no dedup fields or nothing raises in the gaps. -/
theorem dedup_state_released_iff (c : WorkflowConsumer) (store : RedisWorkflowContractStore)
    (d : Delivery) {es : List StoreEvent} {res : Except Exc (Except Exc Bool)}
    (run : Run ((c.handleMessageImpl d).interpret store.serve) es res)
    (calm : ∀ e ∈ es, cancels e = false) :
    outstanding es = ⟨[], []⟩ ↔ c.stage.dedupKeyFields = [] ∨ Undisturbed c d es := by
  obtain ⟨t, r, rfl, original, segments⟩ :=
    run_of_interpret (fun op es e => serve_total op e) run
  have total : tally es = ⟨outstanding es, es.any spoils, es.any marks⟩ := tally_eq es
  by_cases dedup : c.stage.dedupKeyFields = []
  · have unused : Triple (Leaves store fun s => s.outstanding = ⟨[], []⟩) (c.handleMessageImpl d)
        (fun _ => Leaves store fun s => s.outstanding = ⟨[], []⟩)
        (fun _ => Leaves store fun s => s.outstanding = ⟨[], []⟩) := by
      refine handleMessageImpl_triple (fun _ => id) (fun t e h neutral => h.neutral neutral)
        fun message rawPayload => ?_
      unfold WorkflowConsumer.processDeduplicated
      rw [if_pos dedup]
      have avoids : Avoids Op.onContract
          (c.processStage d message (c.makeContext d message rawPayload) false) :=
        processStage_avoids onContract_of_touchy (fun _ => rfl) rfl (.pure _)
      refine avoids _ fun t e h own => h.other own fun s _ hs => ?_
      simpa [Tally.after] using hs
    have nothing := Leaves.of_run unused rfl original segments calm
    rw [total] at nothing
    exact ⟨fun _ => Or.inl dedup, fun _ => nothing⟩
  · have used : Triple (Leaves store (· = .start)) (c.handleMessageImpl d)
        (fun _ => Leaves store (Squared c d)) (fun _ => Leaves store (Squared c d)) := by
      exact handleMessageImpl_triple (fun t h => h.imp squared_start)
        (fun t e h neutral => h.neutral neutral)
        fun message rawPayload => processDeduplicated_leaves rfl dedup
    have squared := Leaves.of_run used rfl original segments calm
    rw [total] at squared
    refine squared.trans ?_
    rw [or_iff_right dedup]
    constructor
    · rintro ⟨sound, measurable⟩
      exact ⟨by simpa using sound, fun marked => measurable (List.any_eq_true.mpr marked)⟩
    · rintro ⟨sound, measurable⟩
      exact ⟨by simpa using sound, fun marked => measurable (List.any_eq_true.mp marked)⟩

end Consumer

/-! ## A message of a stage with a dedup field -/

def stageBody : Bytes :=
  ascii "\x7b\"task_id\":\"t\",\"message_id\":\"m\",\"payload\":\x7b\"doc\":\"d\"\x7d\x7d"

def stageCodec : Codec :=
  { Codec.tabulated [(stageBody, .dict [("task_id", .str "t"), ("message_id", .str "m"),
      ("payload", .dict [("doc", .str "d")])])] with
    validateWorkflow := fun _ payload =>
      match payload.get "task_id", payload.get "message_id", payload.get "payload" with
      | some (.str taskId), some (.str messageId), some (.dict fields) =>
        some ⟨taskId, messageId, none, none, none, fields, payload⟩
      | _, _, _ => none
    toJson := fun _ => .ok stageBody }

def dedupWorker : WorkflowConsumer where
  codec := stageCodec
  consumerName := "worker"
  retryPolicy := some {}
  retryStatuses := {}
  aliasConfig := none
  observationSink := false
  dlqStore := false
  metrics := false
  stage := ⟨"ocr", [], none, none, none, ["doc"]⟩
  contractStore := true
  leasing := some ⟨"owner"⟩

def dayStore : RedisWorkflowContractStore := ⟨"relayna", some 86400, stageCodec.text, fun _ => ""⟩

def stageDelivery (redelivered : Bool) : Delivery where
  message := ⟨stageBody, fun _ => none, none, some 1, redelivered, some "application/json",
    ⟨"0", 0⟩⟩
  metadata := ⟨fun _ => none, none, some 1, redelivered, some "application/json", 0⟩
  sourceQueueName := "ocr"
  retryInfrastructure := some ⟨"ocr", "ocr.retry", "ocr.dlq"⟩

def stageScope : DedupScope := ⟨"ocr", "t", none, [("doc", .str "d")], ["doc"]⟩

/-- Every command succeeds; the dedup key is there or not, and the lease store answers so. -/
def stageWorld (absent : Bool) (lease : Except Exc Bool) :
    (op : StoreOp) → Except Exc op.Reply
  | .redis (.setNx ..) => .ok absent
  | .redis (.delete _) | .redis (.hset ..) | .redis (.expire ..) | .redis (.hdel ..) => .ok ()
  | .other (.acquireLease _) => lease
  | .other op => granting op

def stageRun (redelivered absent : Bool) (lease : Except Exc Bool) :
    List StoreEvent × Except Exc (Except Exc Bool) :=
  ((dedupWorker.handleMessageImpl (stageDelivery redelivered)).interpret dayStore.serve).exec
    (stageWorld absent lease)

theorem dedup_state_released_iff_handled :
    (∃ e ∈ (stageRun false true (.ok true)).1, marks e = true) ∧
      outstanding (stageRun false true (.ok true)).1 = ⟨[], []⟩ := by
  have calm : ∀ e ∈ (stageRun false true (.ok true)).1, cancels e = false := by decide +kernel
  refine ⟨by decide +kernel, (dedup_state_released_iff _ _ _ (run_exec _ _) calm).mpr ?_⟩
  refine Or.inr ⟨by decide +kernel, fun _ metrics => ?_⟩
  cases metrics

/-- The lease store raises. The message is neither acked nor rejected, and its dedup key stays.
When it is delivered again, it is dead-lettered for the conflict with itself. -/
theorem leaked_key_dead_letters_redelivery :
    ∃ (es es' : List StoreEvent) (exc : Exc) (copy : Outgoing),
      Run ((dedupWorker.handleMessageImpl (stageDelivery false)).interpret dayStore.serve) es
        (.ok (.error exc)) ∧
      (∀ e ∈ es, cancels e = false) ∧
      outstanding es = ⟨[dayStore.dedupKey stageScope],
        [(dayStore.inflightKey stageScope, dayStore.buildDedupSignature stageScope)]⟩ ∧
      Run ((dedupWorker.handleMessageImpl (stageDelivery true)).interpret dayStore.serve) es'
        (.ok (.ok true)) ∧
      es' = [⟨.redis (.setNx (dayStore.dedupKey stageScope) (some 86400)), .ok false⟩,
        ⟨.other (.publishRaw "ocr.dlq" copy), .ok ()⟩] ∧
      copy.headers "x-relayna-failure-reason" = some (.str "dedup_conflict") := by
  refine ⟨(stageRun false true (.error (.error "ConnectionError" ""))).1,
    (stageRun true false (.ok true)).1, .error "ConnectionError" "", _, run_exec _ _,
    by decide +kernel, by decide +kernel, run_exec _ _, rfl, rfl⟩

end Relayna.Consumer
