import Relayna.Consumer.Workflow
import Relayna.Foundation.Interpret

/-!
# What the consumers await besides

The helpers that publish copies, statuses and observations while a message is handled await
routine operations only. What a consumer does with a start or an end of a task, a lease, a dedup
key or a denied message is not routine.
-/
namespace Relayna.Consumer

open Python Contracts Await

def Op.routine : Op → Bool
  | .publishRaw .. | .publishStatus .. | .addDlqRecord _ | .ack | .reject false | .joinHeartbeat
  | .releaseLease .. | .sampleResources => true
  | .observe (.workflowStageFailed _ _ _ requeue) => !requeue
  | .observe (.taskResourceSampled _ _ _ _ _ kind) => decide (kind = .start)
  | .observe _ => true
  | .metric (.taskRetry _) | .metric (.taskDlq _) | .metric (.observationEvent ..) => true
  | _ => false

section Helpers

variable {bad : Op → Bool} (s : Settings) (d : Delivery)

theorem swallow_avoids {x : Proc Unit} (h : Avoids bad x) : Avoids bad (swallow x) := by
  refine h.tryCatch fun exc => ?_
  cases exc with
  | cancelled => exact .raise _
  | _ => exact .pure _

theorem note_avoids {op : Op} (good : bad op = false) : Avoids bad (note op) :=
  (Avoids.perform good).attempt.bind fun _ => .pure _

theorem emitObservation_avoids {observation : Observation}
    (good : bad (.observe observation) = false) : Avoids bad (s.emitObservation observation) := by
  unfold Settings.emitObservation
  split
  · exact swallow_avoids (.perform good)
  · exact .pure _

theorem record_avoids {metric : Metric} (good : bad (.metric metric) = false) :
    Avoids bad (s.record metric) := by
  unfold Settings.record
  split
  · exact note_avoids good
  · exact .pure _

variable (good : ∀ op : Op, op.routine = true → bad op = false)

include good

theorem publishRetryCopy_avoids (policy : Option RetryPolicy) (retryAttempt maxRetries : Int)
    (reason : String) (exceptionType : Option String) (extraHeaders : Fields Value)
    (observation : RetryInfrastructure → Observation)
    (observes : ∀ i, bad (.observe (observation i)) = false) :
    Avoids bad (s.publishRetryCopy policy d retryAttempt maxRetries reason exceptionType
      extraHeaders observation) := by
  unfold Settings.publishRetryCopy
  split
  · exact .raise _
  · exact (Avoids.perform (good _ rfl)).bind fun _ => emitObservation_avoids s (observes _)

theorem persistDlqRecord_avoids (letter : DeadLetter) :
    Avoids bad (s.persistDlqRecord letter) := by
  unfold Settings.persistDlqRecord
  split
  · refine (Avoids.perform (good _ rfl)).tryCatch fun exc => ?_
    cases exc with
    | cancelled => exact .raise _
    | _ => exact emitObservation_avoids s (good _ rfl)
  · exact .pure _

theorem publishDeadLetterCopy_avoids (policy : Option RetryPolicy) (taskId : Option String)
    (retryAttempt : Int) (reason : String) (exceptionType exceptionMessage : Option String)
    (extraHeaders : Fields Value) (observation : RetryInfrastructure → Int → Observation)
    (observes : ∀ i n, bad (.observe (observation i n)) = false) :
    Avoids bad (s.publishDeadLetterCopy policy d taskId retryAttempt reason exceptionType
      exceptionMessage extraHeaders observation) := by
  unfold Settings.publishDeadLetterCopy
  split
  · exact (Avoids.perform (good _ rfl)).bind fun _ =>
      (emitObservation_avoids s (observes _ _)).bind fun _ => persistDlqRecord_avoids s good _
  · exact .raise _

theorem publishStatusIf_avoids (enabled : Bool) (taskId : String)
    (correlationId : Option String) (status message : String) (statusMeta : Fields Value) :
    Avoids bad
      (Settings.publishStatusIf enabled taskId correlationId status message statusMeta) := by
  unfold Settings.publishStatusIf
  split
  · exact swallow_avoids (.perform (good _ rfl))
  · exact .pure _

end Helpers

namespace WorkflowConsumer

variable {bad : Op → Bool} (c : WorkflowConsumer) (d : Delivery)
  (good : ∀ op : Op, op.routine = true → bad op = false)

include good

theorem refuse_avoids (taskId : Option String) (reason : String) (exceptionType : Option String) :
    Avoids bad (c.refuse d taskId reason exceptionType) := by
  unfold refuse
  split
  · exact (Avoids.perform (good _ rfl)).bind fun _ => .pure _
  · exact (publishDeadLetterCopy_avoids _ _ good _ _ _ _ _ _ _ _ fun _ _ => good _ rfl).bind
      fun _ => .pure _

theorem onHandlerFailed_avoids (message : WorkflowEnvelope) (context : WorkflowContext)
    (exc : Exc) : Avoids bad (c.onHandlerFailed d message context exc) := by
  unfold onHandlerFailed
  refine (emitObservation_avoids _ (good _ rfl)).bind fun _ => ?_
  simp only
  split
  · exact (Avoids.perform (good _ rfl)).bind fun _ => .pure _
  · split
    · exact .raise _
    · exact (record_avoids _ (good _ rfl)).bind fun _ =>
        (publishRetryCopy_avoids _ _ good _ _ _ _ _ _ _ fun _ => good _ rfl).bind fun _ =>
          (publishStatusIf_avoids good _ _ _ _ _ _).bind fun _ => .pure _
  · exact .raise _
  · split
    · exact .raise _
    · exact (record_avoids _ (good _ rfl)).bind fun _ =>
        (publishDeadLetterCopy_avoids _ _ good _ _ _ _ _ _ _ _ fun _ _ => good _ rfl).bind
          fun _ => (publishStatusIf_avoids good _ _ _ _ _ _).bind fun _ => .pure _

theorem releaseStageLease_avoids (message : WorkflowEnvelope) :
    Avoids bad (c.releaseStageLease message) := by
  unfold releaseStageLease
  split
  · exact .pure _
  · refine Avoids.bind ((Avoids.perform (good _ rfl)).tryCatch fun exc => ?_)
      fun _ => .perform (good _ rfl)
    cases exc with
    | cancelled => exact .pure _
    | _ => exact .raise _

end WorkflowConsumer

namespace TaskConsumer

variable {bad : Op → Bool} (c : TaskConsumer) (d : Delivery)
  (good : ∀ op : Op, op.routine = true → bad op = false)

include good

theorem publishLifecycleStatus_avoids (context : TaskContext) (status message : String) :
    Avoids bad (c.publishLifecycleStatus d context status message) := by
  unfold publishLifecycleStatus
  split
  · exact swallow_avoids ((Avoids.perform (good _ rfl)).bind fun _ =>
      emitObservation_avoids _ (good _ rfl))
  · exact .pure _

theorem publishDeadLetterStatus_avoids (context : TaskContext) (exc : Exc) :
    Avoids bad (c.publishDeadLetterStatus d context exc) := by
  unfold publishDeadLetterStatus
  split
  · exact publishStatusIf_avoids good _ _ _ _ _ _
  · exact c.publishLifecycleStatus_avoids d good context _ _

theorem onHandlerFailed_avoids (requeue : ∀ b, bad (.reject b) = false) (task : TaskEnvelope)
    (context : TaskContext) (exc : Exc) : Avoids bad (c.onHandlerFailed d task context exc) := by
  have rejected : Avoids bad (do
      c.publishLifecycleStatus d context c.lifecycleStatuses.failedStatus
        (failureMessage exc c.lifecycleStatuses.includeErrorMessage)
      let requeue := decide (c.failureAction = .requeue)
      reject requeue
      c.emitObservation (.taskMessageRejected
        (c.subject d task.taskId context.correlationId task.taskType) requeue "handler_error")
      return false) :=
    (c.publishLifecycleStatus_avoids d good context _ _).bind fun _ =>
      (Avoids.perform (requeue _)).bind fun _ =>
        (emitObservation_avoids _ (good _ rfl)).bind fun _ => .pure _
  unfold onHandlerFailed
  refine (emitObservation_avoids _ (good _ rfl)).bind fun _ => ?_
  simp only
  split
  · exact rejected
  · exact rejected
  · split
    · exact .raise _
    · exact (record_avoids _ (good _ rfl)).bind fun _ =>
        (publishRetryCopy_avoids _ _ good _ _ _ _ _ _ _ fun _ => good _ rfl).bind fun _ =>
          (publishStatusIf_avoids good _ _ _ _ _ _).bind fun _ =>
            (Avoids.perform (good _ rfl)).bind fun _ => .pure _
  · exact (record_avoids _ (good _ rfl)).bind fun _ =>
      (publishDeadLetterCopy_avoids _ _ good _ _ _ _ _ _ _ _ fun _ _ => good _ rfl).bind fun _ =>
        (c.publishDeadLetterStatus_avoids d good context exc).bind fun _ =>
          (Avoids.perform (good _ rfl)).bind fun _ => .pure _

end TaskConsumer

end Relayna.Consumer
