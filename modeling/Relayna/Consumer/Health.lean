import Relayna.Consumer.Protocol

/-!
# Operations that succeed, and helpers that do no harm

In a healthy run every awaited operation but the handler succeeds and nobody cancels. A helper
is benign if it awaits auxiliary operations only and raises in no healthy run; such a helper
moves no delivery, and this is all that is said about it.
-/
namespace Relayna.Consumer

open Python Contracts Await

/-- The handler may raise any `Exception`; every other operation succeeds, and the workers of
`map_bounded` are not told to stop. -/
def healthy : Event → Bool
  | ⟨.handler _, .error exc⟩ | ⟨.workflowHandler .., .error exc⟩ =>
    match exc with
    | .cancelled => false
    | _ => true
  | ⟨.completion _, .ok (_, stopped)⟩ => !stopped
  | ⟨_, .ok _⟩ => true
  | ⟨_, .error _⟩ => false

def Unhealthy (past : List Event) : Prop := ∃ e ∈ past, healthy e = false

theorem unhealthy_snoc {past : List Event} {e : Event} (h : healthy e = false) :
    Unhealthy (past ++ [e]) :=
  ⟨e, List.mem_append_right _ (List.mem_singleton_self e), h⟩

/-- The world in which every operation succeeds and whatever is asked for is granted. -/
def granting : (op : Op) → Except Exc op.Reply
  | .handler _ => .ok none
  | .acquireLease _ | .acquireDedup _ | .sampleResources => .ok true
  | .completion _ => .ok (0, false)
  | .workflowHandler .. | .publishRaw .. | .publishTask _ | .publishStatus .. | .observe _
  | .joinHeartbeat | .releaseLease .. | .markInflight _ | .clearInflight _ | .releaseDedup _
  | .addDlqRecord _ | .ack | .reject _ | .metric _ => .ok ()

theorem healthy_granting (op : Op) : healthy ⟨op, granting op⟩ = true := by cases op <;> rfl

/-- Auxiliary operations keep the property. -/
def Stable (P : List Event → Prop) : Prop :=
  ∀ past e, P past → e.op.auxiliary = true → P (past ++ [e])

/-- Only auxiliary operations are awaited, and what is raised comes from one that failed. -/
def Benign {α : Type} (raises : Exc → Prop) (x : Proc α) : Prop :=
  ∀ P, Stable P → Triple P x (fun _ => P) (fun exc t => P t ∧ Unhealthy t ∧ raises exc)

/-- A benign helper that raises nothing but a cancellation. -/
abbrev Calm {α : Type} (x : Proc α) : Prop := Benign (· = .cancelled) x

theorem Stable.and {P R : List Event → Prop} (hP : Stable P) (hR : Stable R) :
    Stable fun t => P t ∧ R t :=
  fun past e h aux => ⟨hP past e h.1 aux, hR past e h.2 aux⟩

theorem Stable.unhealthy : Stable Unhealthy := by
  rintro past e ⟨e', he', bad⟩ -
  exact ⟨e', List.mem_append_left _ he', bad⟩

namespace Benign

variable {α β : Type} {raises raises' : Exc → Prop} {x : Proc α}

theorem any (hx : Benign raises x) : Benign (fun _ => True) x :=
  fun P hP => (hx P hP).conseq (fun _ => id) (fun _ _ => id) fun _ _ h => ⟨h.1, h.2.1, trivial⟩

theorem pure (a : α) : Benign raises (Pure.pure a : Proc α) := fun _ _ => .pure fun _ => id

theorem bind {f : α → Proc β} (hx : Benign raises x) (hf : ∀ a, Benign raises (f a)) :
    Benign raises (x >>= f) :=
  fun P hP => .bind (hx P hP) fun a => hf a P hP

theorem perform {op : Op} (aux : op.auxiliary = true) : Benign (fun _ => True) (perform op) := by
  intro P hP
  refine .perform (fun t a h => hP t _ h aux)
    fun t exc h => ⟨hP t _ h aux, unhealthy_snoc ?_, trivial⟩
  cases op <;> first | rfl | simp [Op.auxiliary] at aux

theorem attempt (hx : Benign raises x) : Benign raises' x.attempt := by
  intro P hP
  refine (Triple.attempt (hx P hP)).conseq (fun _ => id) (fun r t h => ?_) (fun _ _ => id)
  cases r with
  | ok a => exact h
  | error exc => exact h.1

/-- The handler runs after an operation has failed, so it may raise. -/
theorem tryCatch {handler : Exc → Proc α} (hx : Benign raises x)
    (hh : ∀ exc P, Stable P → Triple P (handler exc) (fun _ => P) (fun e t => P t ∧ raises' e)) :
    Benign raises' (x.tryCatch handler) := by
  intro P hP
  refine .tryCatch (hx P hP) fun exc => ?_
  exact (hh exc _ (hP.and Stable.unhealthy)).conseq (fun _ h => ⟨h.1, h.2.1⟩)
    (fun _ _ h => h.1) (fun _ _ h => ⟨h.1.1, h.1.2, h.2⟩)

theorem swallow {x : Proc Unit} (hx : Benign raises x) : Calm (swallow x) := by
  refine hx.tryCatch fun exc P _ => ?_
  cases exc with
  | cancelled => exact .raise fun _ h => ⟨h, rfl⟩
  | _ => exact .pure fun _ => id

theorem note {op : Op} (aux : op.auxiliary = true) : Calm (note op) :=
  (Benign.perform aux).attempt.bind fun _ => .pure ()

theorem joinHeartbeat : Benign (fun _ => True) joinHeartbeat := by
  refine (Benign.perform rfl).tryCatch fun exc P _ => ?_
  cases exc with
  | cancelled => exact .pure fun _ => id
  | _ => exact .raise fun _ h => ⟨h, trivial⟩

end Benign

section Helpers

variable (s : Settings)

theorem Settings.emitObservation_calm (observation : Observation) :
    Calm (s.emitObservation observation) := by
  unfold Settings.emitObservation
  split
  · exact (Benign.perform rfl).swallow
  · exact .pure ()

theorem Settings.record_calm (metric : Metric) : Calm (s.record metric) := by
  unfold Settings.record
  split
  · exact .note rfl
  · exact .pure ()

theorem Settings.recordOutcome_calm {α : Type} (labels : MetricLabels) (ended : Except Exc α) :
    Calm (s.recordOutcome labels ended) := by
  unfold Settings.recordOutcome
  split
  · exact s.record_calm _
  · exact .pure ()
  · exact s.record_calm _

theorem Settings.persistDlqRecord_calm (letter : DeadLetter) :
    Calm (s.persistDlqRecord letter) := by
  unfold Settings.persistDlqRecord
  split
  · refine (Benign.perform rfl).tryCatch fun exc P hP => ?_
    cases exc with
    | cancelled => exact .raise fun _ h => ⟨h, rfl⟩
    | _ =>
      exact (s.emitObservation_calm _ P hP).conseq (fun _ => id) (fun _ _ => id)
        fun _ _ h => ⟨h.1, h.2.2⟩
  · exact .pure ()

theorem publishStatusIf_calm (enabled : Bool) (taskId : String)
    (correlationId : Option String) (status message : String) (statusMeta : Fields Value) :
    Calm (Settings.publishStatusIf enabled taskId correlationId status message statusMeta) := by
  unfold Settings.publishStatusIf
  split
  · exact (Benign.perform rfl).swallow
  · exact .pure ()

end Helpers

end Relayna.Consumer
