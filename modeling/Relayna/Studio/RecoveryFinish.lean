import Relayna.Studio.RecoveryDispatch

/-!
# When a recovery plan finishes

Only `settle` completes a plan, and only a running one. Blocking an item and the control `pause`
leave the plan paused. When that happens to a plan with no other pending item, it stays paused:
there is nothing to resume or to authorise, and no later `settle` completes it.
-/
namespace Relayna.Studio.Recovery

open Transition

/-- No item is pending. -/
def Plan.exhausted (p : Plan) : Bool := p.items.all fun i => !i.isPending

/-- With nothing left to dispatch the plan is over. -/
def Plan.Finished (p : Plan) : Prop :=
  p.exhausted = true →
    (p.state = .completed ∨ p.state = .stopped) ∧ p.dispatchFinishedAt.isSome = true

/-- A plan that waits for its operator accepts a batch or a resume. -/
def Plan.Authorisable (p : Plan) (now : Int) : Prop :=
  p.exhausted = false → p.state = .ready ∨ p.state = .paused →
    ∃ c q, (c.action = .batch ∨ c.action = .resume) ∧ c.version = p.version ∧
      p.control c now = .ok q

/-- A refused preflight that is not retryable does not take the last pending item of a running
plan, and a pause is not accepted when no item is pending. -/
def timely (s : Center) : Step → Bool
  | .commit w =>
    match s.workers w with
    | .judged _ f (.error e) =>
      e.retryable || s.plan.state ≠ .running || !(s.plan.item? f).any Item.isPending ||
        used s.plan.items + 1 ≠ s.plan.items.length
    | _ => true
  | .control c =>
    !(c.action = .pause && c.version = s.plan.version && s.plan.state = .running &&
      s.plan.exhausted)
  | _ => true

/-- A plan that waits has a pending item, and one that is over says when. -/
structure WellPaced (p : Plan) : Prop where
  allowance_le : p.allowance ≤ p.items.length
  waits : p.state = .ready ∨ p.state = .paused → used p.items ≠ p.items.length
  finished : p.state = .completed ∨ p.state = .stopped → p.dispatchFinishedAt.isSome = true

section Step

variable {s t : Center} {p q : Plan} {f : String} {now : Int}

theorem exhausted_iff : p.exhausted = true ↔ used p.items = p.items.length := by
  simp [Plan.exhausted, used, List.countP_eq_length]

theorem not_exhausted_iff : p.exhausted = false ↔ used p.items ≠ p.items.length := by
  rw [← Bool.not_eq_true, exhausted_iff]

theorem used_ne_of_pending {i : Item} (found : p.item? f = some i)
    (pending : i.isPending = true) : used p.items ≠ p.items.length := by
  intro all
  have spent := List.all_eq_true.mp (exhausted_iff.mpr all) i (Keyed.mem_of_get? found)
  rw [pending] at spent
  cases spent

theorem wellPaced_control {c : Control} (h : WellPaced p)
    (pause : c.action = .pause → c.version = p.version → p.state = .running →
      p.exhausted = false)
    (hq : p.control c now = .ok q) : WellPaced q := by
  obtain ⟨version, r, acted, rfl⟩ := control_cases hq
  cases acted with
  | stop action running => exact ⟨h.allowance_le, by simp [Plan.stamp], by simp [Plan.stamp]⟩
  | pause action running =>
    have left := not_exhausted_iff.mp (pause action version.symm running)
    exact ⟨h.allowance_le, fun _ => left, by simp [Plan.stamp]⟩
  | resume action paused room =>
    exact ⟨h.allowance_le, by simp [Plan.stamp], by simp [Plan.stamp]⟩
  | batch action waits some_pending =>
    exact ⟨Nat.min_le_left _ _, by simp [Plan.stamp], by simp [Plan.stamp]⟩

theorem isPending_block (e : PreflightError) (i : Item) : (i.block e).isPending = e.retryable := by
  unfold Item.isPending Item.block
  cases e.retryable <;> rfl

theorem wellPaced_block {e : PreflightError} (h : WellPaced p)
    (last : e.retryable = false → p.state = .running →
      (p.item? f).any Item.isPending = true → used p.items + 1 ≠ p.items.length)
    (hq : p.block f e = some q) : WellPaced q := by
  obtain ⟨i, found, running, pending, hq⟩ := block_cases hq
  have items : q.items = p.amend f (Item.block e) := by rw [hq]
  have length : q.items.length = p.items.length := items ▸ Keyed.length_amend
  have count := used_amend found items
  have left := used_ne_of_pending found pending
  refine ⟨?_, fun _ => ?_, by simp [hq]⟩
  · rw [length, hq]
    exact h.allowance_le
  · rw [length]
    rw [pending, isPending_block] at count
    cases retryable : e.retryable with
    | true =>
      rw [retryable] at count
      omega
    | false =>
      have := last retryable running (by rw [found]; exact pending)
      rw [retryable] at count
      simp only [if_true, Bool.false_eq_true, if_false] at count
      omega

theorem wellPaced_claim {snapshot : Nat} {baseline : Option Int} (h : WellPaced p)
    (hq : p.claim snapshot f baseline now = some q) : WellPaced q := by
  obtain ⟨i, found, running, -, -, -, -, rfl⟩ := claim_cases hq
  refine ⟨?_, by simp [running], by simp [running]⟩
  rw [Plan.amend, Keyed.length_amend]
  exact h.allowance_le

theorem wellPaced_itemChange {ch : Changes} (h : WellPaced p) (touched : Touched p f)
    (hq : p.itemChange f ch = some q) : WellPaced q := by
  obtain ⟨i, found, -, -, hq⟩ := itemChange_cases hq
  have items : q.items = p.amend f (Item.update ch) := by rw [hq]
  have length : q.items.length = p.items.length := items ▸ Keyed.length_amend
  have same : used q.items = used p.items := by
    obtain ⟨j, found', spent⟩ := touched
    obtain rfl : i = j := Option.some.inj (found.symm.trans found')
    have count := used_amend found items
    rw [spent, update_isPending spent] at count
    omega
  refine ⟨?_, ?_, ?_⟩
  · rw [length, hq]
    exact h.allowance_le
  · rw [length, same, hq]
    exact h.waits
  · rw [hq]
    exact h.finished

theorem wellPaced_settle (h : WellPaced p) (hq : p.settle now = some q) : WellPaced q := by
  obtain ⟨-, -, ⟨-, rfl⟩ | ⟨left, rfl⟩⟩ := settle_cases hq
  · exact ⟨h.allowance_le, by simp, by simp⟩
  · exact ⟨h.allowance_le, fun _ => left, by simp⟩

theorem wellPaced_change {edit : Option Plan} (h : WellPaced s.plan)
    (edits : ∀ q, edit = some q → WellPaced q) : WellPaced (s.change edit).plan := by
  cases edit with
  | none => exact h
  | some q => exact edits q rfl

theorem wellPaced_step (inv : DispatchInv s) (h : WellPaced s.plan) {l : Step}
    (ok : timely s l = true) (taken : next s l = some t) : WellPaced t.plan := by
  have tracks {w : Nat} {x : Worker} (here : s.workers w = x) : Tracks s x := here ▸ inv.tracks w
  cases taken_of_next taken with
  | controlled hc =>
    refine wellPaced_control h (fun action version running => ?_) hc
    simpa [timely, action, version, running] using ok
  | block here =>
    refine wellPaced_change h fun q hq => wellPaced_block h (fun retryable running pending => ?_) hq
    simpa [timely, here, retryable, running, pending] using ok
  | claim here hc => exact wellPaced_claim h hc
  | record here =>
    have touched := inv.touched _ (tracks here)
    exact wellPaced_change h fun q hq => wellPaced_itemChange h touched hq
  | note here =>
    exact wellPaced_change h fun q hq => wellPaced_itemChange h (tracks here).1 hq
  | settle here => exact wellPaced_change h fun q hq => wellPaced_settle h hq
  | _ => exact h

/-- `settle` completes a running plan with nothing pending. -/
theorem finished_settle (h : WellPaced s.plan) {w : Nat} (taken : next s (.settle w) = some t)
    (settled : WellPaced t.plan) : t.plan.Finished := by
  intro exhausted
  have all := exhausted_iff.mp exhausted
  cases state : t.plan.state with
  | completed => exact ⟨Or.inl rfl, settled.finished (Or.inl state)⟩
  | stopped => exact ⟨Or.inr rfl, settled.finished (Or.inr state)⟩
  | ready => exact absurd all (settled.waits (Or.inl state))
  | paused => exact absurd all (settled.waits (Or.inr state))
  | running =>
    cases taken_of_next taken with
    | settle here =>
      cases edit : s.plan.settle s.clock with
      | none =>
        have unchanged : (s.change (s.plan.settle s.clock)).plan = s.plan := by
          simp [Center.change, edit]
        simp only [Center.move, unchanged] at all state
        have full : s.plan.state = .running ∧ s.plan.allowance ≤ used s.plan.items :=
          ⟨state, all ▸ h.allowance_le⟩
        rw [Plan.settle, if_pos full, if_pos all] at edit
        cases edit
      | some q =>
        have changed : (s.change (s.plan.settle s.clock)).plan = q := by
          simp [Center.change, edit]
        simp only [Center.move, changed] at state
        obtain ⟨-, -, ⟨-, rfl⟩ | ⟨-, rfl⟩⟩ := settle_cases edit <;> cases state

theorem authorisable (p : Plan) (now : Int) : p.Authorisable now := by
  intro left waits
  rw [not_exhausted_iff] at left
  have accepted : ∃ r, p.act (.plain .batch p.version) now = .ok r := by
    rcases waits with ready | paused
    · exact ⟨_, by simp only [Plan.act, Control.plain, ready, if_neg left]; rfl⟩
    · exact ⟨_, by simp only [Plan.act, Control.plain, paused, if_neg left]; rfl⟩
  obtain ⟨r, acted⟩ := accepted
  refine ⟨.plain .batch p.version, r.stamp now, Or.inl rfl, rfl, ?_⟩
  simp [Plan.control, Control.plain] at acted ⊢
  rw [acted]
  rfl

end Step

/-- In a run whose steps are timely, a tick leaves a plan with nothing pending completed or
stopped, and a plan that waits can be continued. -/
theorem recovery_finishes (requestId : String) (request : PreviewRequest)
    (baseline : String → Option Int) (created clock nextPollAt : Int) (ls : List Step) (s : Center)
    (ok : machine.Along (fun s l => timely s l = true)
      (start (create requestId request baseline created) clock nextPollAt) ls)
    (run : machine.exec
      (start (create requestId request baseline created) clock nextPollAt) ls = some s) :
    (∀ w t, next s (.settle w) = some t → t.plan.Finished) ∧ s.plan.Authorisable s.clock := by
  obtain ⟨inv, paced⟩ : DispatchInv s ∧ WellPaced s.plan := by
    refine Machine.invariant_along (I := fun s => DispatchInv s ∧ WellPaced s.plan)
      (fun s l t inv ok taken => ?_) ⟨.start, Nat.zero_le _, fun _ => ?_, ?_⟩ ok run
    · exact ⟨inv.1.step taken, wellPaced_step inv.1 inv.2 ok taken⟩
    · show used _ ≠ _
      rw [Recovery.start, used_create, ← List.length_map Item.failureId, ids_create]
      exact fun unselected => request.some_selected (List.length_eq_zero_iff.mp unselected.symm)
    · simp [Recovery.start, create]
  refine ⟨fun w t taken => ?_, authorisable s.plan s.clock⟩
  exact finished_settle paced taken (wellPaced_step inv paced rfl taken)

/-- Nothing can be read from the service. -/
def unreachable : Evidence where
  service := .error (.caught "Service is unreachable.")
  receipt := .error (.caught "Service is unreachable.")
  status := .error (.caught "Service is unreachable.")

/-- One worker sends the requests of both items and observes them. -/
def bothSent : List Step :=
  [.control (.plain .batch 0), .due 0, .preflight 0 (.ok none), .commit 0, .send 0,
    .respond 0 (.error "ReadTimeout"), .record 0, .fail 0, .clock (seconds 2), .due 0,
    .preflight 0 (.ok none), .commit 0, .send 0, .respond 0 (.error "ReadTimeout"), .record 0,
    .load 0, .observe 0 (seconds 2) unreachable, .note 0, .observe 0 (seconds 2) unreachable,
    .note 0]

theorem recovery_finishes_of_bothSent :
    ∃ s, machine.exec (start (create "r" twoFailures (fun _ => none) 0) 0 0) bothSent = some s ∧
      s.plan.exhausted = true ∧ s.plan.state = .running ∧ (next s (.settle 0)).isSome = true ∧
      (∀ w t, next s (.settle w) = some t → t.plan.Finished) ∧ s.plan.Authorisable s.clock := by
  have ok : machine.Along (fun s l => timely s l = true)
      (start (create "r" twoFailures (fun _ => none) 0) 0 0) bothSent := by
    decide +kernel
  have given :
      (machine.exec (start (create "r" twoFailures (fun _ => none) 0) 0 0) bothSent).map
        (fun s => (s.plan.exhausted, s.plan.state, (next s (.settle 0)).isSome)) =
      some (true, .running, true) := by
    decide +kernel
  obtain ⟨s, run, facts⟩ := Option.map_eq_some_iff.mp given
  obtain ⟨exhausted, facts⟩ := Prod.mk.inj facts
  obtain ⟨running, settles⟩ := Prod.mk.inj facts
  exact ⟨s, run, exhausted, running, settles, recovery_finishes "r" twoFailures (fun _ => none) 0 0
    0 bothSent s ok run⟩

/-- The second failure has been retried elsewhere since the preview. -/
def blockedLast : List Step :=
  [.control (.plain .batch 0), .due 0, .preflight 0 (.ok none), .commit 0, .send 0,
    .respond 0 (.error "ReadTimeout"), .record 0, .load 0,
    .observe 0 0 unreachable, .note 0, .settle 0, .clock (seconds 2), .due 0,
    .preflight 0 (.error (.http ⟨409, "This failure snapshot has already been retried."⟩)),
    .commit 0, .load 0, .observe 0 (seconds 2) unreachable, .note 0]

theorem blocked_plan_stays_paused :
    ¬∀ s t, machine.exec (start (create "r" twoFailures (fun _ => none) 0) 0 0) blockedLast =
        some s → next s (.settle 0) = some t → t.plan.Finished := by
  have given :
      ((machine.exec (start (create "r" twoFailures (fun _ => none) 0) 0 0) blockedLast).bind
        (fun s => next s (.settle 0))).map (fun t => (t.plan.exhausted, t.plan.state)) =
      some (true, .paused) := by
    decide +kernel
  obtain ⟨t, run, facts⟩ := Option.map_eq_some_iff.mp given
  obtain ⟨s, reached, settled⟩ := Option.bind_eq_some_iff.mp run
  obtain ⟨exhausted, paused⟩ := Prod.mk.inj facts
  intro claim
  obtain ⟨ended | ended, -⟩ := claim s t reached settled exhausted <;>
    · rw [paused] at ended
      cases ended

end Relayna.Studio.Recovery
