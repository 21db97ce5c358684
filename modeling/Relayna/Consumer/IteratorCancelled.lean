import Relayna.Consumer.BoundedIterator

/-!
# A cancelled `run_bounded_iterator`

The `except` cancels the tasks, awaits them and raises `CancelledError` again. The `finally` that
follows raises the first failure of a handler instead, if there is one. A call that is cancelled in
its `finally` does not get that far.
-/
namespace Relayna.Consumer.BoundedIterator

open Transition

/-- What a `run_forever` does before it makes the next call. -/
inductive Pause where
  | none
  | zero
  | idle
  deriving DecidableEq, Repr

inductive Reaction where
  | raises
  | returns
  | again (pause : Pause)
  deriving DecidableEq, Repr

variable {ι ε : Type}

/-- How a `run_forever` reacts when the call has ended like this, `stopped` says whether its stop
event is set. `timeouts` is about an `except TimeoutError` of its own. -/
def react (timeouts stopped : Bool) : Outcome ε → Reaction
  | .cancelled => .raises
  | .raised .timeoutError =>
    if stopped then .returns else .again (if timeouts then .zero else .idle)
  | .raised _ => if stopped then .returns else .again .idle
  | .returned => if stopped then .returns else .again .none

inductive Caller where
  | taskConsumer
  | aggregationConsumer
  | workflowConsumer
  | statusHub
  deriving DecidableEq, Repr

def Caller.react : Caller → Bool → Outcome ε → Reaction
  | .taskConsumer => BoundedIterator.react true
  | .aggregationConsumer => BoundedIterator.react true
  | .workflowConsumer => BoundedIterator.react true
  | .statusHub => BoundedIterator.react false

theorem Caller.react_cancelled (caller : Caller) (stopped : Bool) :
    caller.react stopped (.cancelled : Outcome ε) = .raises := by
  cases caller <;> rfl

/-- What the cancellation of a call is for. -/
structure Call.Obeys (c : Call ι ε) (outcome : Outcome ε) : Prop where
  cancelled : c.cancelSent
  awaited : c.inFlight = 0
  raises : outcome = .cancelled
  callers : ∀ (caller : Caller) stopped, caller.react stopped outcome = .raises

/-- The call is in its `finally`. -/
def Place.leaving : Place ε → Bool
  | .gathering _ => true
  | _ => false

/-- The places of a call after its first cancellation, which has found it in its `finally` or
not. -/
def Call.Cancelled (leaving : Bool) (c : Call ι ε) : Prop :=
  match c.place with
  | .interrupted _ => leaving = false
  | .cancelling => leaving = false ∧ c.cancelSent
  | .gatheringCancelled => leaving = true ∧ c.cancelSent
  | .done outcome => c.inFlight = 0 ∧ c.cancelSent ∧
    outcome = if leaving then .cancelled else c.conclude .cancelled
  | .acquiring | .asking | .sleeping | .gathering _ => False

/-- How many steps are left at most. -/
def Call.work (c : Call ι ε) : Nat :=
  3 * c.created.length + 2 * c.running.length + c.callbacks.length +
    match c.place with
    | .interrupted _ => 2
    | .cancelling | .gatheringCancelled => 1
    | _ => 0

section Cancelled

variable {leaving : Bool} {c d : Call ι ε}

theorem Call.Plain.cancel (h : c.Plain) (hd : c.cancel = some d) :
    d.Cancelled c.place.leaving ∧ d.work ≤ 3 * c.inFlight + 2 := by
  unfold Call.Plain at h
  unfold Call.cancel at hd
  unfold Call.work Call.inFlight
  split at hd <;> rename_i here <;> rw [here] at h <;> cases hd
  · exact ⟨by rw [here]; rfl, by dsimp only; omega⟩
  · exact ⟨by rw [here]; rfl, by dsimp only; omega⟩
  · exact ⟨by rw [here]; rfl, by dsimp only; omega⟩
  · exact h.elim
  · exact h.elim
  · exact h.elim
  · exact ⟨by rw [here]; exact ⟨rfl, rfl⟩, by dsimp only; omega⟩

/-- Nothing but the tasks, the callbacks and the first failure has changed, and only while there
were tasks or callbacks. -/
theorem Call.Cancelled.of_busy (h : c.Cancelled leaving) (place : d.place = c.place)
    (sent : d.cancelSent = c.cancelSent) (busy : c.inFlight ≠ 0) : d.Cancelled leaving := by
  unfold Call.Cancelled at h ⊢
  rw [place, sent]
  split <;> simp_all

/-- From here on the tasks are told to stop, whatever the call has been waiting for. -/
theorem Call.cancelTasks_cancelled (c : Call ι ε) :
    c.cancelTasks.Cancelled false ∧ c.cancelTasks.work ≤
      3 * c.created.length + 2 * c.running.length + c.callbacks.length + 1 := by
  unfold Call.cancelTasks Call.Cancelled Call.work
  by_cases empty : c.inFlight = 0
  · rw [if_pos empty]
    exact ⟨⟨empty, rfl, rfl⟩, by dsimp only; omega⟩
  · rw [if_neg empty]
    exact ⟨⟨rfl, rfl⟩, Nat.le_refl _⟩

theorem Call.Cancelled.resume (h : c.Cancelled leaving) (hd : c.resume = some d) :
    d.Cancelled leaving ∧ d.work + 1 ≤ c.work := by
  unfold Call.Cancelled at h
  unfold Call.resume at hd
  split at hd <;> rename_i here <;> rw [here] at h
  · exact h.elim
  · exact h.elim
  · next holding =>
    obtain rfl := Option.some.inj hd
    subst h
    obtain ⟨cancelled, work⟩ := Call.cancelTasks_cancelled (if holding then c.release else c)
    have same : (if holding then c.release else c).created = c.created ∧
        (if holding then c.release else c).running = c.running ∧
        (if holding then c.release else c).callbacks = c.callbacks := by
      cases holding <;> exact ⟨rfl, rfl, rfl⟩
    rw [same.1, same.2.1, same.2.2] at work
    refine ⟨cancelled, ?_⟩
    simp only [Call.work, here] at work ⊢
    omega
  · obtain ⟨rfl, sent⟩ := h
    split at hd <;> cases hd
    next empty =>
      refine ⟨⟨empty, sent, rfl⟩, ?_⟩
      simp only [Call.work, here]
      omega
  · exact h.elim
  · obtain ⟨rfl, sent⟩ := h
    split at hd <;> cases hd
    next empty =>
      refine ⟨⟨empty, sent, rfl⟩, ?_⟩
      simp only [Call.work, here]
      omega
  · cases hd
  · cases hd

/-- A second cancellation changes nothing. -/
theorem Call.Cancelled.cancel (h : c.Cancelled leaving) (hd : c.cancel = some d) :
    d.Cancelled leaving ∧ d.work ≤ c.work := by
  have kept := h
  unfold Call.Cancelled at h
  unfold Call.cancel at hd
  split at hd <;> rename_i here <;> rw [here] at h <;> cases hd
  · exact h.elim
  · exact h.elim
  · exact h.elim
  · exact ⟨kept, Nat.le_refl _⟩
  · refine ⟨?_, Nat.le_refl _⟩
    unfold Call.Cancelled
    rw [here]
    exact ⟨h.1, rfl⟩
  · refine ⟨?_, Nat.le_refl _⟩
    unfold Call.Cancelled
    rw [here]
    exact ⟨h.1, rfl⟩
  · exact h.elim

theorem Call.Cancelled.next (h : c.Cancelled leaving) {l : Label ι ε}
    (hd : boundedIterator.next c l = some d) :
    d.Cancelled leaving ∧ d.work + (if l.works then 1 else 0) ≤ c.work := by
  cases l with
  | setStop stop =>
    cases hd
    exact ⟨h, Nat.le_refl _⟩
  | resume => exact h.resume hd
  | answer reply =>
    simp only [boundedIterator] at hd
    split at hd
    · next here =>
      unfold Call.Cancelled at h
      rw [here] at h
      exact h.elim
    · cases hd
  | start k =>
    simp only [boundedIterator] at hd
    split at hd
    · cases hd
    · obtain ⟨x, found, rfl⟩ := Option.map_eq_some_iff.mp hd
      have shorter := length_eraseIdx_of_some found
      refine ⟨h.of_busy rfl rfl (inFlight_ne_zero_of_created (List.mem_of_getElem? found)), ?_⟩
      simp only [Call.work, List.length_append, List.length_singleton, Label.works, if_true]
      omega
  | finish k outcome =>
    obtain ⟨x, found, rfl⟩ := Option.map_eq_some_iff.mp hd
    have shorter := length_eraseIdx_of_some found
    refine ⟨h.of_busy rfl rfl (inFlight_ne_zero_of_running (List.mem_of_getElem? found)), ?_⟩
    simp only [Call.work, Call.release, List.length_append, List.length_singleton, Label.works,
      if_true]
    omega
  | drop k =>
    simp only [boundedIterator] at hd
    split at hd
    · obtain ⟨x, found, rfl⟩ := Option.map_eq_some_iff.mp hd
      have shorter := length_eraseIdx_of_some found
      refine ⟨h.of_busy rfl rfl (inFlight_ne_zero_of_created (List.mem_of_getElem? found)), ?_⟩
      simp only [Call.work, List.length_append, List.length_singleton, Label.works, if_true]
      omega
    · cases hd
  | record =>
    simp only [boundedIterator] at hd
    split at hd
    · cases hd
    · next outcome rest found =>
      cases hd
      refine ⟨h.of_busy rfl rfl ?_, ?_⟩
      · simp only [Call.inFlight, found, List.length_cons]
        omega
      · simp only [Call.work, found, List.length_cons, Label.works, if_true]
        omega
  | cancel => exact h.cancel hd

theorem Call.Cancelled.exec (h : c.Cancelled leaving) {ls : List (Label ι ε)}
    (hd : boundedIterator.exec c ls = some d) :
    d.Cancelled leaving ∧ d.work + (ls.filter Label.works).length ≤ c.work := by
  induction ls generalizing c with
  | nil =>
    obtain rfl := Option.some.inj hd
    exact ⟨h, Nat.le_refl _⟩
  | cons l ls ih =>
    obtain ⟨e, he, rest⟩ := Option.bind_eq_some_iff.mp hd
    obtain ⟨cancelled, step⟩ := h.next he
    obtain ⟨last, steps⟩ := ih cancelled rest
    refine ⟨last, ?_⟩
    rw [List.filter_cons]
    split at step
    · next works =>
      rw [if_pos works, List.length_cons]
      omega
    · next idle =>
      rw [if_neg idle]
      omega

/-- A cancelled call that has not ended waits for a handler or for nothing but its turn. -/
theorem Call.Cancelled.not_stuck (h : c.Cancelled leaving)
    (unended : ∀ outcome, c.place ≠ .done outcome) :
    ∃ l, l.works ∧ (boundedIterator.next c l).isSome := by
  have flying : c.cancelSent → c.inFlight ≠ 0 →
      ∃ l, l.works ∧ (boundedIterator.next c l).isSome := by
    intro sent busy
    unfold Call.inFlight at busy
    cases hc : c.created with
    | cons x xs => exact ⟨.drop 0, rfl, by simp [boundedIterator, sent, hc]⟩
    | nil =>
      cases hr : c.running with
      | cons x xs => exact ⟨.finish 0 .cancelled, rfl, by simp [boundedIterator, hr]⟩
      | nil =>
        cases hb : c.callbacks with
        | cons o os => exact ⟨.record, rfl, by simp [boundedIterator, hb]⟩
        | nil => simp [hc, hr, hb] at busy
  unfold Call.Cancelled at h
  split at h <;> rename_i here
  · exact ⟨.resume, rfl, by simp [boundedIterator, Call.resume, here]⟩
  · by_cases empty : c.inFlight = 0
    · exact ⟨.resume, rfl, by simp [boundedIterator, Call.resume, here, empty]⟩
    · exact flying h.2 empty
  · by_cases empty : c.inFlight = 0
    · exact ⟨.resume, rfl, by simp [boundedIterator, Call.resume, here, empty]⟩
    · exact flying h.2 empty
  · exact absurd here (unended _)
  all_goals exact h.elim

end Cancelled

/-- What the cancellation of a call is for is met exactly when the call was in its `finally` or
none of its handlers fails, neither before nor while it is being cancelled. -/
structure Call.Cancellation (c d : Call ι ε) (failed : List (Error ε)) (steps : Nat) : Prop where
  obeys : ∀ outcome, d.place = .done outcome →
    (d.Obeys outcome ↔ c.place.leaving ∨ failed = [])
  bounded : steps ≤ 3 * c.inFlight + 2
  goesOn : (∀ outcome, d.place ≠ .done outcome) →
    ∃ l, l.works ∧ (boundedIterator.next d l).isSome

/-- A call that has been cancelled ends after as many steps as its tasks still have to take, and
how it ends depends on where it was and on whether a handler fails. -/
theorem run_bounded_iterator_cancelled (concurrency : Int) (stop : Bool)
    (ls ks : List (Label ι ε)) (c d : Call ι ε) (uncancelled : ∀ l ∈ ls, l.cancels = false)
    (run : boundedIterator.exec (Call.start concurrency stop) ls = some c)
    (rest : boundedIterator.exec c (.cancel :: ks) = some d) :
    c.Cancellation d (failuresOf (ls ++ ks)) (ks.filter Label.works).length := by
  have kept := kept_exec (Call.kept_start concurrency stop) uncancelled run
  obtain ⟨e, he, after⟩ := Option.bind_eq_some_iff.mp rest
  obtain ⟨cancelled, work⟩ := kept.plain.cancel he
  obtain ⟨last, steps⟩ := cancelled.exec after
  refine ⟨fun outcome here => ?_, by omega, last.not_stuck⟩
  unfold Call.Cancelled at last
  rw [here] at last
  obtain ⟨empty, sent, ends⟩ := last
  have first : d.firstError = (failuresOf (ls ++ ks)).head? := by
    have parts : failuresOf (ls ++ .cancel :: ks) = failuresOf (ls ++ ks) := by
      simp only [failuresOf, List.filterMap_append, List.filterMap_cons, Label.failure]
    have whole : boundedIterator.exec (Call.start concurrency stop) (ls ++ .cancel :: ks) =
        some d := by
      rw [Machine.exec_append, run]
      exact rest
    rw [firstError_eq_head empty, failures_exec whole, Call.failures_start, List.nil_append, parts]
  have raises : outcome = .cancelled ↔ c.place.leaving ∨ failuresOf (ls ++ ks) = [] := by
    rw [ends, ← List.head?_eq_none_iff, ← first]
    cases c.place.leaving <;> cases h : d.firstError <;> simp [Call.conclude, h]
  rw [← raises]
  exact ⟨Call.Obeys.raises, fun h => ⟨sent, empty, h, fun caller stopped => by
    rw [h, caller.react_cancelled]⟩⟩

/-- Two handlers are running; the first ends as it is told to and the second has never started. -/
def cancelledWhileAsking : List (Label Nat String) :=
  [.answer (.item 1), .answer (.item 2), .start 0]

theorem run_bounded_iterator_cancelled_while_asking :
    ∃ c d, boundedIterator.exec (Call.start 3 false) cancelledWhileAsking = some c ∧
      boundedIterator.exec c [.cancel, .resume, .drop 0, .finish 0 .cancelled, .record, .record,
        .resume] = some d ∧ d.place = .done .cancelled ∧
      c.Cancellation d [] 6 :=
  ⟨_, _, rfl, rfl, rfl, run_bounded_iterator_cancelled 3 false cancelledWhileAsking
    [.resume, .drop 0, .finish 0 .cancelled, .record, .record, .resume] _ _ (by decide) rfl rfl⟩

/-- The handler of the first item has failed while the call was waiting for a second item. -/
theorem failure_replaces_cancellation :
    ¬ ∀ (ls ks : List (Label Nat String)) (c d : Call Nat String) (outcome : Outcome String),
      (∀ l ∈ ls, l.cancels = false) →
      boundedIterator.exec (Call.start 2 false) ls = some c →
      boundedIterator.exec c (.cancel :: ks) = some d → d.place = .done outcome →
        d.Obeys outcome := by
  intro h
  have raises := (h [.answer (.item 1), .start 0, .finish 0 (.raised (.other "boom")), .record]
    [.resume] _ _ _ (by decide) rfl rfl rfl).raises
  exact absurd raises (by decide)

end Relayna.Consumer.BoundedIterator
