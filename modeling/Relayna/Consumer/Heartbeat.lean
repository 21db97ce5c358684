import Relayna.Consumer.RetryBudget

/-!
# A heartbeat that fails

While a task or a stage is worked on, `_heartbeat_lease` sends heartbeats in a task of its own.
The `finally` block cancels that task and awaits it, and only the cancellation is caught there. A
heartbeat that has raised something else ended the task before: what it raised comes out of the
`finally` block instead of the outcome of the work, and the lease is not released.
-/
namespace Relayna.Consumer

open Python Contracts Await

/-- How `_heartbeat_lease` ends after it was cancelled, by what its heartbeats have answered: the
first of them that raises ends it. -/
def heartbeatLease : List (Except Exc Unit) → Except Exc Unit
  | [] => .error .cancelled
  | .ok _ :: calls => heartbeatLease calls
  | .error exc :: _ => .error exc

/-- What the first heartbeat that raises has raised. -/
def firstRaised (calls : List (Except Exc Unit)) : Option Exc :=
  calls.findSome? fun
    | .ok _ => none
    | .error exc => some exc

/-- No heartbeat has raised anything but a cancellation. -/
def Quiet (calls : List (Except Exc Unit)) : Prop := ∀ exc ∈ firstRaised calls, exc = .cancelled

theorem heartbeatLease_eq (calls : List (Except Exc Unit)) :
    heartbeatLease calls = .error ((firstRaised calls).getD .cancelled) := by
  induction calls with
  | nil => rfl
  | cons call calls ih =>
    cases call with
    | ok _ => exact ih
    | error exc => rfl

theorem quiet_iff {calls : List (Except Exc Unit)} :
    Quiet calls ↔ heartbeatLease calls = .error .cancelled := by
  rw [heartbeatLease_eq, Quiet]
  cases firstRaised calls <;> simp

/-- The heartbeat task of a run has made these calls. -/
def Beats (calls : List (Except Exc Unit)) (es : List Event) : Prop :=
  ∀ answer, (⟨.joinHeartbeat, answer⟩ : Event) ∈ es → answer = heartbeatLease calls

/-- The release of the lease is issued. -/
def Released (leaseId ownerId : String) (es : List Event) : Prop :=
  ∃ answer, (⟨.releaseLease leaseId ownerId, answer⟩ : Event) ∈ es

/-- The release of the lease raises nothing that the outcome is not already. -/
def ReleaseKeeps {α : Type} (leaseId ownerId : String) (es : List Event) (outcome : Except Exc α) :
    Prop :=
  ∀ exc, (⟨.releaseLease leaseId ownerId, .error exc⟩ : Event) ∈ es → outcome = .error exc

/-! ## The end of a lease -/

section Runs

variable {α : Type} {es : List Event} {leaseId ownerId : String} {calls : List (Except Exc Unit)}

/-- Awaiting the heartbeat passes on what it raises, except the cancellation. -/
theorem run_joinHeartbeat {ending : Except Exc Unit} (h : Run joinHeartbeat es ending) :
    ∃ answer, es = [⟨.joinHeartbeat, answer⟩] ∧
      (answer ≠ .error .cancelled → ending = answer) ∧
      (answer = .error .cancelled → ending = .ok ()) := by
  obtain ⟨e, rfl, hr⟩ | ⟨answer, first, rest, rfl, hr, hf⟩ := run_bind h
  · obtain ⟨r, raised, -⟩ := run_attempt hr
    cases raised
  · obtain ⟨r, same, hx⟩ := run_attempt hr
    cases same
    obtain rfl := run_perform_iff.mp hx
    cases answer with
    | ok a =>
      obtain ⟨rfl, rfl⟩ := run_pure_iff.mp hf
      exact ⟨_, rfl, fun _ => rfl, fun h => nomatch h⟩
    | error e =>
      cases e with
      | cancelled =>
        obtain ⟨rfl, rfl⟩ := run_pure_iff.mp hf
        exact ⟨_, rfl, fun ne => absurd rfl ne, fun _ => rfl⟩
      | _ =>
        obtain ⟨rfl, rfl⟩ := run_raise_iff.mp hf
        exact ⟨_, rfl, fun _ => rfl, fun h => nomatch h⟩

/-- The lease is released and the outcome kept exactly if the heartbeat was quiet and the release
does not raise. -/
theorem run_release_iff {outcome : Except Exc α} {ending : Except Exc Unit}
    (h : Run (do joinHeartbeat; perform (.releaseLease leaseId ownerId)) es ending)
    (beats : Beats calls es) :
    (Released leaseId ownerId es ∧ afterFinally outcome ending = outcome) ↔
      Quiet calls ∧ ReleaseKeeps leaseId ownerId es outcome := by
  rw [quiet_iff]
  obtain ⟨e, rfl, hr⟩ | ⟨_, first, rest, rfl, hr, hf⟩ := run_bind h
  · obtain ⟨answer, rfl, other, cancelled⟩ := run_joinHeartbeat hr
    obtain rfl := beats answer List.mem_cons_self
    have raised : heartbeatLease calls ≠ .error .cancelled := fun quiet => nomatch cancelled quiet
    constructor
    · rintro ⟨⟨answer, here⟩, -⟩
      cases List.mem_singleton.mp here
    · exact fun quiet => absurd quiet.1 raised
  · obtain ⟨answer, rfl, other, cancelled⟩ := run_joinHeartbeat hr
    obtain rfl := run_perform_iff.mp hf
    obtain rfl := beats answer List.mem_cons_self
    have quiet : heartbeatLease calls = .error .cancelled := by
      by_contra raised
      have := other raised
      rw [heartbeatLease_eq] at this
      cases this
    constructor
    · rintro ⟨-, kept⟩
      refine ⟨quiet, fun exc here => ?_⟩
      rcases List.mem_cons.mp here with join | release
      · cases join
      · cases List.mem_singleton.mp release
        exact kept.symm
    · rintro ⟨-, keeps⟩
      refine ⟨⟨ending, by simp⟩, ?_⟩
      cases ending with
      | ok _ => rfl
      | error exc =>
        exact (keeps exc (List.mem_cons_of_mem _ List.mem_cons_self)).symm

end Runs

/-! ## The two consumers -/

namespace WorkflowConsumer

variable (c : WorkflowConsumer) (d : Delivery)

/-- The `try` statement of a stage without its `finally` block. -/
def tryStage (message : WorkflowEnvelope) (context : WorkflowContext) : Proc (Option Bool) := do
  let ended ← (perform (.workflowHandler context c.stage.timeoutSeconds)).attempt
  onException ended (pure none) fun exc => do
    let acked ← c.onHandlerFailed d message context exc
    return some acked

end WorkflowConsumer

/-- The cleanup of the dedup state is cancelled. -/
def cleanupCancelled : Event → Bool
  | ⟨.clearInflight _, .error .cancelled⟩ | ⟨.releaseDedup _, .error .cancelled⟩ => true
  | _ => false

section Finally

variable {c : WorkflowConsumer} {d : Delivery} {message : WorkflowEnvelope} {acquired : Bool}
  {es : List Event} {calls : List (Except Exc Unit)}

theorem run_note {op : Op} {ending : Except Exc Unit} (h : Run (note op) es ending) :
    ∃ answer, es = [⟨op, answer⟩] ∧ ending = .ok () := by
  obtain ⟨e, rfl, hr⟩ | ⟨answer, first, rest, rfl, hr, hf⟩ := run_bind h
  · obtain ⟨r, raised, -⟩ := run_attempt hr
    cases raised
  · obtain ⟨r, same, hx⟩ := run_attempt hr
    cases same
    obtain rfl := run_perform_iff.mp hx
    obtain ⟨rfl, rfl⟩ := run_pure_iff.mp hf
    exact ⟨_, rfl, rfl⟩

/-- Recording the outcome is a metric at most. -/
theorem run_recordOutcome {α : Type} {s : Settings} {labels : MetricLabels}
    {ended : Except Exc α} {ending : Except Exc Unit}
    (h : Run (s.recordOutcome labels ended) es ending) :
    ending = .ok () ∧ ∀ e ∈ es, ∃ metric answer, e = ⟨.metric metric, answer⟩ := by
  have recorded : ∀ {metric : Metric}, Run (s.record metric) es ending →
      ending = .ok () ∧ ∀ e ∈ es, ∃ metric answer, e = ⟨.metric metric, answer⟩ := by
    intro metric h
    unfold Settings.record at h
    split at h
    · obtain ⟨answer, rfl, rfl⟩ := run_note h
      exact ⟨rfl, fun e he => ⟨metric, answer, List.mem_singleton.mp he⟩⟩
    · obtain ⟨rfl, rfl⟩ := run_pure_iff.mp h
      exact ⟨rfl, List.forall_mem_nil _⟩
  unfold Settings.recordOutcome at h
  split at h
  · exact recorded h
  · obtain ⟨rfl, rfl⟩ := run_pure_iff.mp h
    exact ⟨rfl, List.forall_mem_nil _⟩
  · exact recorded h

theorem run_swallow {x : Proc Unit} {ending : Except Exc Unit} (h : Run (swallow x) es ending) :
    ∃ outcome, Run x es outcome ∧
      (outcome = .error .cancelled ∧ ending = .error .cancelled ∨
        outcome ≠ .error .cancelled ∧ ending = .ok ()) := by
  obtain ⟨e, rfl, hr⟩ | ⟨outcome, first, rest, rfl, hr, hf⟩ := run_bind h
  · obtain ⟨r, raised, -⟩ := run_attempt hr
    cases raised
  · obtain ⟨r, same, hx⟩ := run_attempt hr
    cases same
    refine ⟨outcome, ?_⟩
    cases outcome with
    | ok a =>
      obtain ⟨rfl, rfl⟩ := run_pure_iff.mp hf
      exact ⟨by simpa using hx, Or.inr ⟨(fun h => nomatch h), rfl⟩⟩
    | error e =>
      cases e with
      | cancelled =>
        obtain ⟨rfl, rfl⟩ := run_raise_iff.mp hf
        exact ⟨by simpa using hx, Or.inl ⟨rfl, rfl⟩⟩
      | _ =>
        obtain ⟨rfl, rfl⟩ := run_pure_iff.mp hf
        exact ⟨by simpa using hx, Or.inr ⟨fun h => (by cases h), rfl⟩⟩

/-- The operation is one of the dedup state. -/
def onDedup : Event → Bool
  | ⟨.clearInflight _, _⟩ | ⟨.releaseDedup _, _⟩ => true
  | _ => false

/-- A part of the cleanup: it goes on unless it is cancelled. -/
def CleansUp (es : List Event) (ending : Except Exc Unit) : Prop :=
  (∀ e ∈ es, onDedup e = true) ∧
    (ending = .ok () ∧ (∀ e ∈ es, cleanupCancelled e = false) ∨
      ending = .error .cancelled ∧ ∃ e ∈ es, cleanupCancelled e = true)

theorem cleansUp_swallow {x : Proc Unit} {ending : Except Exc Unit}
    (event : Except Exc Unit → Event) (runs : ∀ outcome, Run x es outcome → es = [event outcome])
    (dedup : ∀ outcome, onDedup (event outcome) = true)
    (stops : ∀ outcome, cleanupCancelled (event outcome) = true ↔ outcome = .error .cancelled)
    (h : Run (swallow x) es ending) : CleansUp es ending := by
  obtain ⟨outcome, hx, ends⟩ := run_swallow h
  obtain rfl := runs outcome hx
  refine ⟨fun e he => List.mem_singleton.mp he ▸ dedup outcome, ?_⟩
  rcases ends with ⟨cancelled, rfl⟩ | ⟨other, rfl⟩
  · exact Or.inr ⟨rfl, _, List.mem_singleton_self _, (stops outcome).mpr cancelled⟩
  · refine Or.inl ⟨rfl, fun e he => ?_⟩
    rw [List.mem_singleton.mp he, Bool.eq_false_iff]
    exact fun stopped => other ((stops outcome).mp stopped)

theorem run_clearInflight {scope : DedupScope} {ending : Except Exc Unit}
    (h : Run (swallow (perform (.clearInflight scope))) es ending) : CleansUp es ending := by
  refine cleansUp_swallow (fun outcome => ⟨.clearInflight scope, outcome⟩)
    (fun _ => run_perform_iff.mp) (fun _ => rfl) (fun outcome => ?_) h
  rcases outcome with (_ | _ | _ | _) | _ <;> simp [cleanupCancelled]

theorem run_releaseDedup {scope : DedupScope} {ending : Except Exc Unit}
    (h : Run (swallow (perform (.releaseDedup scope))) es ending) : CleansUp es ending := by
  refine cleansUp_swallow (fun outcome => ⟨.releaseDedup scope, outcome⟩)
    (fun _ => run_perform_iff.mp) (fun _ => rfl) (fun outcome => ?_) h
  rcases outcome with (_ | _ | _ | _) | _ <;> simp [cleanupCancelled]

theorem run_cleanupDedupState {ending : Except Exc Unit}
    (h : Run (c.cleanupDedupState acquired message) es ending) : CleansUp es ending := by
  unfold WorkflowConsumer.cleanupDedupState at h
  split at h
  · obtain ⟨e, rfl, hr⟩ | ⟨_, first, rest, rfl, hr, hf⟩ := run_bind h
    · exact run_clearInflight hr
    · obtain ⟨dedup, ⟨-, calm⟩ | ⟨stopped, -⟩⟩ := run_clearInflight hr
      · obtain ⟨dedup', ends⟩ := run_releaseDedup hf
        refine ⟨List.forall_mem_append.mpr ⟨dedup, dedup'⟩, ends.imp ?_ ?_⟩
        · rintro ⟨ending, calm'⟩
          exact ⟨ending, List.forall_mem_append.mpr ⟨calm, calm'⟩⟩
        · rintro ⟨ending, e, he, stopped⟩
          exact ⟨ending, e, List.mem_append_right _ he, stopped⟩
      · cases stopped
  · obtain ⟨rfl, rfl⟩ := run_pure_iff.mp h
    exact ⟨List.forall_mem_nil _, Or.inl ⟨rfl, List.forall_mem_nil _⟩⟩

theorem run_release_calm {leaseId ownerId : String} {ending : Except Exc Unit}
    (h : Run (do joinHeartbeat; perform (.releaseLease leaseId ownerId)) es ending) :
    ∀ e ∈ es, cleanupCancelled e = false := by
  obtain ⟨e, rfl, hr⟩ | ⟨_, first, rest, rfl, hr, hf⟩ := run_bind h
  · obtain ⟨answer, rfl, -, -⟩ := run_joinHeartbeat hr
    exact fun e he => List.mem_singleton.mp he ▸ rfl
  · obtain ⟨answer, rfl, -, -⟩ := run_joinHeartbeat hr
    obtain rfl := run_perform_iff.mp hf
    refine List.forall_mem_append.mpr ⟨fun e he => ?_, fun e he => ?_⟩
    · exact List.mem_singleton.mp he ▸ rfl
    · exact List.mem_singleton.mp he ▸ rfl

/-- The lease is released and the outcome of the stage kept exactly if the cleanup is not
cancelled, the heartbeat was quiet and the release does not raise. -/
theorem run_finally_iff {α β : Type} {leasing : Leasing} {labels : MetricLabels}
    {ended : Except Exc β} {outcome : Except Exc α} {ending : Except Exc Unit}
    (leased : c.leasing = some leasing)
    (h : Run (do
      c.cleanupDedupState acquired message
      c.recordOutcome labels ended
      c.releaseStageLease message) es ending)
    (beats : Beats calls es) :
    (Released (c.leaseId message) leasing.ownerId es ∧ afterFinally outcome ending = outcome) ↔
      (∀ e ∈ es, cleanupCancelled e = false) ∧ Quiet calls ∧
        ReleaseKeeps (c.leaseId message) leasing.ownerId es outcome := by
  obtain ⟨e, rfl, hr⟩ | ⟨_, cleanup, rest, rfl, hr, hf⟩ := run_bind h
  · obtain ⟨dedup, ⟨raised, -⟩ | ⟨-, e', he', stopped⟩⟩ := run_cleanupDedupState hr
    · cases raised
    · constructor
      · rintro ⟨⟨answer, here⟩, -⟩
        cases dedup _ here
      · rintro ⟨calm, -⟩
        rw [calm e' he'] at stopped
        cases stopped
  obtain ⟨dedup, ⟨-, calm⟩ | ⟨raised, -⟩⟩ := run_cleanupDedupState hr
  · obtain ⟨e, rfl, hr⟩ | ⟨_, metrics, release, rfl, hr, hf⟩ := run_bind hf
    · cases (run_recordOutcome hr).1
    · obtain ⟨-, noted⟩ := run_recordOutcome hr
      unfold WorkflowConsumer.releaseStageLease at hf
      rw [leased] at hf
      have core : (Released (c.leaseId message) leasing.ownerId release ∧
          afterFinally outcome ending = outcome) ↔ _ := run_release_iff hf fun answer here =>
        beats answer (List.mem_append_right _ (List.mem_append_right _ here))
      have leaseOnly : ∀ answer, (⟨.releaseLease (c.leaseId message) leasing.ownerId, answer⟩ :
          Event) ∈ cleanup ++ (metrics ++ release) ↔
            ⟨.releaseLease (c.leaseId message) leasing.ownerId, answer⟩ ∈ release := by
        intro answer
        constructor
        · intro here
          rcases List.mem_append.mp here with first | later
          · cases dedup _ first
          · rcases List.mem_append.mp later with metric | release
            · obtain ⟨metric, answer', same⟩ := noted _ metric
              cases same
            · exact release
        · exact fun here => List.mem_append_right _ (List.mem_append_right _ here)
      have quietRest : ∀ e ∈ cleanup ++ (metrics ++ release), cleanupCancelled e = false := by
        refine List.forall_mem_append.mpr ⟨calm, List.forall_mem_append.mpr ⟨fun e he => ?_, ?_⟩⟩
        · obtain ⟨metric, answer, rfl⟩ := noted e he
          rfl
        · exact run_release_calm hf
      simp only [Released, ReleaseKeeps, leaseOnly] at core ⊢
      rw [core]
      exact (and_iff_right quietRest).symm
  · cases raised

end Finally

theorem heartbeat_outcome_iff (calls : List (Except Exc Unit)) :
    (∀ (c : TaskConsumer) (leasing : Leasing) (d : Delivery) (task : TaskEnvelope)
      (context : TaskContext) (lease : LeaseRequest) (es : List Event) (res : Except Exc Bool),
      c.leasing = some leasing →
      Run (c.processTaskWithLease d task context) (⟨.acquireLease lease, .ok true⟩ :: es) res →
      Beats calls es →
      ∃ work rest outcome, es = work ++ rest ∧ Run (c.processTask d task context) work outcome ∧
        ((Released task.taskId leasing.ownerId rest ∧ res = outcome) ↔
          Quiet calls ∧ ReleaseKeeps task.taskId leasing.ownerId rest outcome)) ∧
    (∀ (c : WorkflowConsumer) (leasing : Leasing) (d : Delivery) (message : WorkflowEnvelope)
      (context : WorkflowContext) (dedupAcquired : Bool) (es : List Event)
      (res : Except Exc (Option Bool)), c.leasing = some leasing →
      Run (c.runStage d message context dedupAcquired) es res →
      Beats calls es →
      ∃ work rest outcome, es = work ++ rest ∧ Run (c.tryStage d message context) work outcome ∧
        ((Released (c.leaseId message) leasing.ownerId rest ∧ res = outcome) ↔
          (∀ e ∈ rest, cleanupCancelled e = false) ∧ Quiet calls ∧
            ReleaseKeeps (c.leaseId message) leasing.ownerId rest outcome)) := by
  constructor
  · intro c leasing d task context lease es res leased run beats
    unfold TaskConsumer.processTaskWithLease at run
    rw [leased] at run
    cases run with
    | await _ run =>
      obtain ⟨work, rest, outcome, ending, rfl, hx, hf, rfl⟩ := run_tryFinally run
      refine ⟨work, rest, outcome, rfl, hx, ?_⟩
      exact run_release_iff hf fun answer here => beats answer (List.mem_append_right _ here)
  · intro c leasing d message context dedupAcquired es res leased run beats
    unfold WorkflowConsumer.runStage at run
    obtain ⟨e, rfl, hr⟩ | ⟨ended, handled, rest, rfl, hr, hf⟩ := run_bind run
    · obtain ⟨r, raised, -⟩ := run_attempt hr
      cases raised
    · obtain ⟨work, last, outcome, ending, rfl, hx, hfin, rfl⟩ := run_tryFinally hf
      refine ⟨handled ++ work, last, outcome, by rw [List.append_assoc], hr.bind hx, ?_⟩
      exact run_finally_iff leased hfin fun answer here =>
        beats answer (List.mem_append_right _ (List.mem_append_right _ here))

/-! ## One task -/

def leasedWorker : TaskConsumer := { batchWorker with leasing := some ⟨"owner"⟩ }

def leasedTask : TaskEnvelope := ⟨"t", none, none, .dict [("task_id", .str "t")]⟩

def leasedContext : TaskContext where
  consumerName := "worker"
  rawPayload := leasedTask.content
  correlationId := none
  deliveryTag := some 1
  redelivered := false
  taskId := "t"
  retryAttempt := 0
  maxRetries := some 3
  sourceQueueName := "status"
  headers _ := none
  manualRetryCount := 0
  manualRetryPreviousTaskType := none
  manualRetrySourceConsumer := none
  manualRetryReason := none

def leasedDelivery : Delivery where
  message := statusMessage statusBody fun _ => none
  metadata := ⟨fun _ => none, none, some 1, false, some "application/json", 0⟩
  sourceQueueName := "status"
  retryInfrastructure := some statusQueues

/-- Everything succeeds but the heartbeats, which answer so. -/
def beating (calls : List (Except Exc Unit)) : (op : Op) → Except Exc op.Reply
  | .joinHeartbeat => heartbeatLease calls
  | op => granting op

def leasedRun (calls : List (Except Exc Unit)) : List Event × Except Exc Bool :=
  (leasedWorker.processTaskWithLease leasedDelivery leasedTask leasedContext).exec (beating calls)

def isRelease : Event → Bool
  | ⟨.releaseLease .., _⟩ => true
  | _ => false

theorem quiet_heartbeat_keeps_outcome :
    ∃ work rest outcome, (leasedRun [.ok (), .ok ()]).1.tail = work ++ rest ∧
      Run (leasedWorker.processTask leasedDelivery leasedTask leasedContext) work outcome ∧
      Released "t" "owner" rest ∧ (leasedRun [.ok (), .ok ()]).2 = outcome := by
  have run := run_exec (beating [.ok (), .ok ()])
    (leasedWorker.processTaskWithLease leasedDelivery leasedTask leasedContext)
  have beats : Beats [.ok (), .ok ()] (leasedRun [.ok (), .ok ()]).1.tail := fun _ here =>
    answer_of_mem_exec _ (List.mem_of_mem_tail here)
  obtain ⟨work, rest, outcome, split, worked, iff_⟩ :=
    (heartbeat_outcome_iff [.ok (), .ok ()]).1 leasedWorker ⟨"owner"⟩ leasedDelivery leasedTask
      leasedContext _ _ _ rfl run beats
  have split : (leasedRun [.ok (), .ok ()]).1.tail = work ++ rest := split
  have quiet : Quiet [.ok (), .ok ()] := by
    intro exc raised
    cases raised
  have keeps : ReleaseKeeps "t" "owner" rest outcome := by
    intro exc raised
    have here : (⟨.releaseLease "t" "owner", .error exc⟩ : Event) ∈
        (leasedRun [.ok (), .ok ()]).1.tail := by
      rw [split]
      exact List.mem_append_right _ raised
    cases answer_of_mem_exec _ (List.mem_of_mem_tail here)
  obtain ⟨released, same⟩ := iff_.mpr ⟨quiet, keeps⟩
  exact ⟨work, rest, outcome, split, worked, released, same⟩

/-- The handler has succeeded and a heartbeat has failed: the message is not acked. -/
theorem failed_heartbeat_loses_outcome :
    ((leasedWorker.processTask leasedDelivery leasedTask leasedContext).exec
      (beating [.error (.error "ConnectionError" "")])).2 = .ok true ∧
    (leasedRun [.error (.error "ConnectionError" "")]).2 =
      .error (.error "ConnectionError" "") ∧
    ∀ e ∈ (leasedRun [.error (.error "ConnectionError" "")]).1, isRelease e = false := by
  exact ⟨rfl, rfl, by decide +kernel⟩

end Relayna.Consumer
