import Mathlib.Algebra.Order.Field.Basic
import Mathlib.Tactic.Linarith
import Mathlib.Tactic.NormNum
import Relayna.Studio.AvailabilityCounters

/-!
# The availability gate keeps outages

An outage is what a failure sets and a success clears. An operation that is of the current
generation has started since the latest failure of its key, and so not before its `retry_at`:
`Timed`. With the counters this is all that a run of the gate keeps.
-/
namespace Relayna.Studio.ProviderAvailability

open AsyncLock Transition

/-! ## Outages -/

/-- What a failure sets and a success clears. -/
def Availability.outage (a : Availability) : ℚ × ℚ × Nat × Nat :=
  (a.healthyUntil, a.retryAt, a.generation, a.failures)

def SameOutage (s s' : Gate) : Prop := ∀ k, (s'.stateAt k).outage = (s.stateAt k).outage

namespace SameOutage

variable {s s' s'' : Gate} {key : Key} {id : Nat} {t t' : ℚ}

theorem trans (h : SameOutage s s') (h' : SameOutage s' s'') : SameOutage s s'' :=
  fun k => (h' k).trans (h k)

theorem generation (h : SameOutage s s') (k : Key) :
    (s'.stateAt k).generation = (s.stateAt k).generation :=
  congrArg (fun outage => outage.2.2.1) (h k)

theorem retryAt (h : SameOutage s s') (k : Key) : (s'.stateAt k).retryAt = (s.stateAt k).retryAt :=
  congrArg (fun outage => outage.2.1) (h k)

theorem modify {g : Availability → Availability} (known : key ∈ s.states.map Prod.fst)
    (keeps : ∀ a, (g a).outage = a.outage) : SameOutage s (s.modify key g) := by
  intro k
  by_cases same : k = key
  · subst same
    rw [Gate.stateAt_modify_self known, keeps]
  · rw [Gate.stateAt_modify_ne known same]

theorem release (known : key ∈ s.states.map Prod.fst) : SameOutage s (s.release key) :=
  modify known fun _ => rfl

theorem perform {held : Bool} (known : key ∈ s.states.map Prod.fst) :
    SameOutage s (s.perform id key held t) := by
  unfold Gate.perform
  split
  · cases held with
    | true => exact release (s := s.refuse id _) known
    | false => exact fun _ => rfl
  · exact modify (g := fun a => { a with active := a.active + 1 }) known fun _ => rfl

theorem probe (known : key ∈ s.states.map Prod.fst) : SameOutage s (s.probe id key t t') := by
  unfold Gate.probe
  dsimp only
  split
  · exact release (s := s.refuse id _) known
  · split
    · exact perform known
    · refine (release known).trans (perform ?_)
      rw [Gate.release, Gate.keys_modify]
      exact known

theorem enter {t : Readings} (known : key ∈ s.states.map Prod.fst) :
    SameOutage s (s.enter id key t) := by
  have known' (g : Availability → Availability) : key ∈ (s.modify key g).states.map Prod.fst := by
    rw [Gate.keys_modify]
    exact known
  have taken : SameOutage s (s.modify key fun a => { a with lock := a.lock.take }) :=
    modify known fun _ => rfl
  unfold Gate.enter
  dsimp only
  split
  · exact fun _ => rfl
  · split
    · split
      · split
        · exact fun _ => rfl
        · split
          · exact taken.trans (probe (known' _))
          · exact modify (g := fun a =>
              { a with waiters := a.waiters + 1, lock := a.lock.enqueue id }) known fun _ => rfl
      · exact taken.trans (probe (known' _))
    · exact perform known

end SameOutage

/-! ## The log -/

/-- Until when the event pauses the key. -/
def Event.pauses (key : Key) : Event → Option ℚ
  | .failed _ k _ retryAt => if k = key then some retryAt else none
  | _ => none

/-- The `retry_at` that was set by the latest failure of the key. -/
def lastRetry (key : Key) (log : List Event) : Option ℚ := log.findSome? (Event.pauses key)

/-- The operation of the call has started since the latest failure of its key. -/
def StartedSince (id : Nat) (key : Key) : List Event → Prop
  | [] => False
  | e :: log => (∃ t, e = .started id key t) ∨ e.pauses key = none ∧ StartedSince id key log

/-- No operation has started before the `retry_at` of the failure before it. -/
def Allowed : List Event → Prop
  | [] => True
  | e :: log =>
    (∀ id key t, e = .started id key t → ∀ r, lastRetry key log = some r → r ≤ t) ∧ Allowed log

section Log

variable {e : Event} {log : List Event} {key : Key} {id : Nat}

theorem lastRetry_cons_of_none (quiet : e.pauses key = none) :
    lastRetry key (e :: log) = lastRetry key log := by
  simp [lastRetry, quiet]

theorem lastRetry_cons_of_some {r : ℚ} (pauses : e.pauses key = some r) :
    lastRetry key (e :: log) = some r := by
  simp [lastRetry, pauses]

theorem StartedSince.cons (h : StartedSince id key log) (quiet : e.pauses key = none) :
    StartedSince id key (e :: log) :=
  Or.inr ⟨quiet, h⟩

theorem Allowed.cons (h : Allowed log) (noStart : ∀ id key t, e ≠ .started id key t) :
    Allowed (e :: log) :=
  ⟨fun id key t here => absurd here (noStart id key t), h⟩

end Log

/-- What is known of outages at the reading `now`. -/
structure Timed (now : ℚ) (s : Gate) : Prop where
  calls : ∀ c ∈ s.calls, ∀ held generation healthy, c.phase = .performing held generation healthy →
    generation ≤ (s.stateAt c.key).generation ∧
      (generation = (s.stateAt c.key).generation → StartedSince c.id c.key s.log ∧
        ∀ r, lastRetry c.key s.log = some r → r ≤ now)
  retry : ∀ k r, lastRetry k s.log = some r → r ≤ now ∨ (s.stateAt k).retryAt = r
  allowed : Allowed s.log

namespace Timed

variable {now now' : ℚ} {s s' : Gate} {key : Key} {id : Nat}

theorem mono (h : Timed now s) (later : now ≤ now') : Timed now' s where
  calls c hc held generation healthy phase := by
    obtain ⟨le, fresh⟩ := h.calls c hc held generation healthy phase
    exact ⟨le, fun same => ⟨(fresh same).1, fun r hr => ((fresh same).2 r hr).trans later⟩⟩
  retry k r hr := (h.retry k r hr).imp_left (·.trans later)
  allowed := h.allowed

/-- Nothing starts or ends. -/
theorem quiet (h : Timed now s) (same : SameOutage s s')
    (calls : ∀ c ∈ s'.calls, c.performs = true → c ∈ s.calls) (log : s'.log = s.log) :
    Timed now s' where
  calls c hc held generation healthy phase := by
    have performs : c.performs = true := by rw [Call.performs, phase]
    rw [same.generation, log]
    exact h.calls c (calls c hc performs) held generation healthy phase
  retry k r hr := by
    rw [same.retryAt]
    exact h.retry k r (log ▸ hr)
  allowed := log ▸ h.allowed

theorem refuse (h : Timed now s) (reason : Refusal) : Timed now (s.refuse id reason) where
  calls c hc held generation healthy phase := by
    obtain ⟨le, fresh⟩ := h.calls c hc held generation healthy phase
    exact ⟨le, fun same => ⟨(fresh same).1.cons rfl, (fresh same).2⟩⟩
  retry k r hr := h.retry k r hr
  allowed := h.allowed.cons fun _ _ _ same => by cases same

theorem release (h : Timed now s) (known : key ∈ s.states.map Prod.fst) :
    Timed now (s.release key) :=
  h.quiet (.release known) (fun _ hc _ => hc) rfl

/-- An operation starts at a reading that is not before its `retry_at`. -/
theorem perform {held : Bool} (h : Timed now s) (known : key ∈ s.states.map Prod.fst)
    (ready : (s.stateAt key).retryAt ≤ now) : Timed now (s.perform id key held now) := by
  have passed (r : ℚ) (hr : lastRetry key s.log = some r) : r ≤ now := by
    rcases h.retry key r hr with past | rfl
    · exact past
    · exact ready
  unfold Gate.perform
  split
  · cases held with
    | true => exact (h.refuse _).release known
    | false => exact h.refuse _
  · have same : SameOutage s (s.modify key fun a => { a with active := a.active + 1 }) :=
      .modify known fun _ => rfl
    refine ⟨fun c hc held' generation healthy phase => ?_, fun k r hr => ?_, ?_⟩
    · rcases List.mem_append.mp hc with old | here
      · obtain ⟨le, fresh⟩ := h.calls c old held' generation healthy phase
        have gen := same.generation c.key
        refine ⟨gen ▸ le, fun current => ?_⟩
        obtain ⟨since, past⟩ := fresh (current.trans gen)
        exact ⟨since.cons rfl, past⟩
      · obtain rfl := List.mem_singleton.mp here
        obtain ⟨rfl, rfl, rfl⟩ := Phase.performing.inj phase
        have gen := same.generation key
        exact ⟨gen.ge, fun _ => ⟨Or.inl ⟨now, rfl⟩, passed⟩⟩
    · have retry := same.retryAt k
      rcases h.retry k r hr with past | current
      · exact Or.inl past
      · exact Or.inr (retry.trans current)
    · refine ⟨fun id' key' t start r hr => ?_, h.allowed⟩
      obtain ⟨rfl, rfl, rfl⟩ := Event.started.inj start
      exact passed r hr

theorem probe {t t' : ℚ} (h : Timed now s) (known : key ∈ s.states.map Prod.fst) (le : now ≤ t)
    (le' : t ≤ t') : Timed t' (s.probe id key t t') := by
  have later := h.mono (le.trans le')
  unfold Gate.probe
  dsimp only
  split
  · exact (later.refuse _).release known
  · rename_i notPaused
    have ready : (s.stateAt key).retryAt ≤ t' := (not_lt.mp notPaused).trans le'
    split
    · exact later.perform known ready
    · have known' : key ∈ (s.release key).states.map Prod.fst := by
        rw [Gate.release, Gate.keys_modify]
        exact known
      refine (later.release known).perform known' ?_
      rw [(SameOutage.release known).retryAt]
      exact ready

theorem enter {t : Readings} (h : Timed now s) (known : key ∈ s.states.map Prod.fst)
    (le : now ≤ t.t₁) : Timed t.t₄ (s.enter id key t) := by
  have known' (g : Availability → Availability) : key ∈ (s.modify key g).states.map Prod.fst := by
    rw [Gate.keys_modify]
    exact known
  have le₂ := le.trans t.le₁₂
  have le₃ := le₂.trans t.le₂₃
  have later := h.mono (le₃.trans t.le₃₄)
  have taken : Timed now (s.modify key fun a => { a with lock := a.lock.take }) :=
    h.quiet (.modify known fun _ => rfl) (fun _ hc _ => hc) rfl
  unfold Gate.enter
  dsimp only
  split
  · exact later.refuse _
  · rename_i notPaused
    split
    · split
      · split
        · exact later.refuse _
        · split
          · exact taken.probe (known' _) le₃ t.le₃₄
          · refine later.quiet (.modify (g := fun a =>
              { a with waiters := a.waiters + 1, lock := a.lock.enqueue id }) known fun _ => rfl)
              (fun c hc performs => ?_) rfl
            rcases List.mem_append.mp hc with old | here
            · exact old
            · rw [List.mem_singleton.mp here] at performs
              cases performs
      · exact taken.probe (known' _) le₃ t.le₃₄
    · refine ((h.mono le₂).perform known ?_).mono (t.le₂₃.trans t.le₃₄)
      exact (not_lt.mp notPaused).trans t.le₁₂

end Timed

/-! ## Steps -/

section Steps

variable {keys : List Key} {s s' : Gate} {key : Key} {id : Nat} {t : Readings} {now : ℚ}

theorem run_timed (few : keys.length ≤ maxStates) (hkey : key ∈ keys)
    (counted : Counted keys none s)
    (h : Timed now s) (le : now ≤ t.t₁) :
    SameOutage s (s.run key t) ∧ Timed t.t₄ (s.run key t) := by
  obtain ⟨states, made, -, mem, same⟩ :=
    Gate.stateFor_ok (s := { s with next := s.next + 1 }) few hkey counted.unique counted.within
  have ready : SameOutage s { s with states := states, next := s.next + 1 } := fun k =>
    congrArg Availability.outage (same k)
  have known := (mem key).mpr (Or.inl rfl)
  unfold Gate.run
  dsimp only
  rw [made]
  exact ⟨ready.trans (.enter known), (h.quiet ready (fun _ hc _ => hc) rfl).enter known le⟩

theorem cancel_timed (counted : Counted keys none s) (h : Timed now s)
    (done : s.cancel id = some s') : SameOutage s s' ∧ Timed now s' := by
  unfold Gate.cancel at done
  split at done
  · rename_i key found
    obtain rfl := Option.some.inj done
    have same : SameOutage s (s.modify key fun a => { a with lock := a.lock.cancel id }) :=
      .modify (counted.known _ (Keyed.mem_of_get? found)) fun _ => rfl
    exact ⟨same, h.quiet same (fun _ hc _ => hc) rfl⟩
  · cases done

theorem resume_timed (counted : Counted keys none s) (h : Timed now s) (le : now ≤ t.t₁)
    (done : s.resume id t = some s') : SameOutage s s' ∧ Timed t.t₄ s' := by
  unfold Gate.resume at done
  split at done
  · rename_i id' key found
    obtain ⟨⟨lock, taken⟩, -, rfl⟩ := Option.map_eq_some_iff.mp done
    have known := counted.known _ (Keyed.mem_of_get? found)
    have known' : key ∈ ((s.drop id).modify key fun a =>
        { a with waiters := a.waiters - 1, lock := lock }).states.map Prod.fst := by
      rw [Gate.keys_modify]
      exact known
    have same : SameOutage s { ((s.drop id).modify key fun a =>
        { a with waiters := a.waiters - 1, lock := lock }) with waiting := s.waiting - 1 } :=
      SameOutage.modify (s := s) (g := fun a => { a with waiters := a.waiters - 1, lock := lock })
        known fun _ => rfl
    have left := h.quiet same (fun c hc _ => List.mem_of_mem_filter hc) rfl
    dsimp only
    cases taken with
    | true =>
      exact ⟨same.trans (.probe known'),
        (left.probe known' le t.le₁₂).mono (t.le₂₃.trans t.le₃₄)⟩
    | false =>
      exact ⟨same, (left.refuse _).mono (((le.trans t.le₁₂).trans t.le₂₃).trans t.le₃₄)⟩
  · cases done

/-- What one step does to the outage of a key. -/
inductive OutageStep (s : Gate) (l : Label) (key : Key) (a' : Availability) : Prop
  /-- It leaves the outage. -/
  | same (outage : a'.outage = (s.stateAt key).outage)
  /-- A failure is recorded, with a pause of 24 to 300 seconds. -/
  | failed {id : Nat} {reason : String} {jitter : Jitter} {wall : Int} {t : Readings}
      (ends : l = .finish id (.failure reason jitter wall) t)
      (failures : a'.failures = (s.stateAt key).failures + 1) (unhealthy : a'.healthyUntil = 0)
      (ge : t.t₁ + 24 ≤ a'.retryAt) (le : a'.retryAt ≤ t.t₁ + 300)
  /-- A success that has started since the latest failure clears the outage. -/
  | cleared {id : Nat} {wall : Int} {t : Readings} (ends : l = .finish id (.success wall) t)
      (since : StartedSince id key s.log) (failures : a'.failures = 0) (retry : a'.retryAt = 0)
      (healthy : a'.healthyUntil = t.t₁ + freshness)

theorem backoff_bounds (failures : Nat) (jitter : Jitter) :
    24 ≤ backoff failures jitter ∧ backoff failures jitter ≤ 300 := by
  have one : (1 : ℚ) ≤ (Nat.pow 2 (min (failures - 1) 4) : Nat) := by
    exact_mod_cast Nat.one_le_two_pow
  have delay : (30 : ℚ) ≤ min 300 (cooldown * (Nat.pow 2 (min (failures - 1) 4) : Nat)) := by
    refine le_min (by norm_num) ?_
    unfold cooldown
    linarith
  refine ⟨le_min (by norm_num) ?_, min_le_left _ _⟩
  have := jitter.ge
  nlinarith

section Ended

variable {held healthy : Bool} {generation : Nat} {outcome : Outcome}

/-- A success keeps the generation, and the `retry_at` of a newer outage. -/
theorem ended_success {wall : Int} (counted : Counted keys none s) (h : Timed now s)
    (found : s.call? id = some ⟨id, key, .performing held generation healthy⟩) :
    Timed now (s.ended id key generation (.success wall) t) := by
  have hc := Keyed.mem_of_get? found
  have known : key ∈ s.states.map Prod.fst := counted.known _ hc
  have same (k : Key) : ((s.ended id key generation (.success wall) t).stateAt k).generation =
      (s.stateAt k).generation := by
    rw [Gate.stateAt_ended known]
    split
    · rename_i here
      subst here
      simp only [Availability.conclude]
      split <;> rfl
    · rfl
  refine ⟨fun c hc held' generation' healthy' phase => ?_, fun k r hr => ?_, ?_⟩
  · obtain ⟨le, fresh⟩ := h.calls c (List.mem_of_mem_filter hc) held' generation' healthy' phase
    rw [same]
    exact ⟨le, fun current => ⟨(fresh current).1.cons rfl, (fresh current).2⟩⟩
  · rw [Gate.stateAt_ended known]
    split
    · rename_i here
      subst here
      simp only [Availability.conclude]
      split
      · rename_i current
        exact Or.inl (((h.calls _ hc held generation healthy rfl).2 current).2 r hr)
      · exact h.retry k r hr
    · exact h.retry k r hr
  · exact h.allowed.cons fun _ _ _ start => by cases start

/-- After a failure no operation of the key is of the current generation. -/
theorem ended_failure {reason : String} {jitter : Jitter} {wall : Int}
    (counted : Counted keys none s) (h : Timed now s)
    (found : s.call? id = some ⟨id, key, .performing held generation healthy⟩) :
    Timed now (s.ended id key generation (.failure reason jitter wall) t) := by
  have known : key ∈ s.states.map Prod.fst := counted.known _ (Keyed.mem_of_get? found)
  obtain ⟨refusal, log⟩ : ∃ refusal,
      (s.ended id key generation (.failure reason jitter wall) t).log =
        .refused id refusal :: .failed id key t.t₁
          (t.t₁ + backoff ((s.stateAt key).failures + 1) jitter) :: s.log := by
    have moved : ((s.drop id).modify key fun a =>
        a.conclude generation (.failure reason jitter wall) t.t₁).stateAt key =
        (s.stateAt key).conclude generation (.failure reason jitter wall) t.t₁ :=
      Gate.stateAt_modify_self (s := s.drop id) known
    refine ⟨.failed reason (((s.stateAt key).conclude generation (.failure reason jitter wall)
      t.t₁).remaining t.t₂), ?_⟩
    simp only [Gate.ended, Gate.record, moved]
    rfl
  -- For another key nothing has failed.
  have quiet {k : Key} (ne : k ≠ key) (e : Event) (he : e ∈ [Event.refused id refusal,
      .failed id key t.t₁ (t.t₁ + backoff ((s.stateAt key).failures + 1) jitter)]) :
      e.pauses k = none := by
    simp only [List.mem_cons, List.not_mem_nil, or_false] at he
    rcases he with rfl | rfl
    · rfl
    · simp [Event.pauses, Ne.symm ne]
  have past {k : Key} (ne : k ≠ key) :
      lastRetry k (s.ended id key generation (.failure reason jitter wall) t).log =
        lastRetry k s.log := by
    rw [log, lastRetry_cons_of_none (quiet ne _ (by simp)),
      lastRetry_cons_of_none (quiet ne _ (by simp))]
  refine ⟨fun c hc held' generation' healthy' phase => ?_, fun k r hr => ?_, ?_⟩
  · obtain ⟨le, fresh⟩ := h.calls c (List.mem_of_mem_filter hc) held' generation' healthy' phase
    rw [Gate.stateAt_ended known]
    split
    · rename_i here
      rw [here] at le
      refine ⟨le.trans (Nat.le_succ _), fun current => ?_⟩
      rw [current] at le
      exact absurd le (Nat.not_succ_le_self _)
    · rename_i ne
      refine ⟨le, fun current => ⟨?_, fun r hr => (fresh current).2 r (past ne ▸ hr)⟩⟩
      rw [log]
      exact ((fresh current).1.cons (quiet ne _ (by simp))).cons (quiet ne _ (by simp))
  · rw [Gate.stateAt_ended known]
    split
    · rename_i here
      subst here
      have pauses : (Event.failed id k t.t₁ (t.t₁ + backoff ((s.stateAt k).failures + 1)
          jitter)).pauses k = some (t.t₁ + backoff ((s.stateAt k).failures + 1) jitter) :=
        if_pos rfl
      rw [log, lastRetry_cons_of_none rfl, lastRetry_cons_of_some pauses] at hr
      exact Or.inr (Option.some.inj hr)
    · rename_i ne
      exact h.retry k r (past ne ▸ hr)
  · rw [log]
    exact (h.allowed.cons fun _ _ _ start => by cases start).cons fun _ _ _ start => by cases start

theorem ended_timed (counted : Counted keys none s) (h : Timed now s)
    (found : s.call? id = some ⟨id, key, .performing held generation healthy⟩) :
    Timed now (s.ended id key generation outcome t) := by
  cases outcome with
  | success wall => exact ended_success counted h found
  | failure reason jitter wall => exact ended_failure counted h found
  | escapes =>
    have known : key ∈ s.states.map Prod.fst := counted.known _ (Keyed.mem_of_get? found)
    refine h.quiet (fun k => ?_) (fun c hc _ => List.mem_of_mem_filter hc) rfl
    rw [Gate.stateAt_ended known]
    split
    · rename_i here
      rw [here]
      rfl
    · rfl

/-- What the end of an operation does to the outages. -/
theorem ended_outage (counted : Counted keys none s) (h : Timed now s)
    (found : s.call? id = some ⟨id, key, .performing held generation healthy⟩) (k : Key) :
    OutageStep s (.finish id outcome t) k
      ((s.ended id key generation outcome t).stateAt k) := by
  have hc := Keyed.mem_of_get? found
  have known : key ∈ s.states.map Prod.fst := counted.known _ hc
  rw [Gate.stateAt_ended known]
  split
  · rename_i here
    subst here
    cases outcome with
    | success wall =>
      simp only [Availability.conclude]
      split
      · rename_i current
        exact .cleared rfl ((h.calls _ hc held generation healthy rfl).2 current).1 rfl rfl rfl
      · exact .same rfl
    | failure reason jitter wall =>
      obtain ⟨ge, le⟩ := backoff_bounds ((s.stateAt k).failures + 1) jitter
      refine .failed rfl rfl rfl ?_ ?_
      · simpa [Availability.conclude] using ge
      · simpa [Availability.conclude] using le
    | escapes => exact .same rfl
  · exact .same rfl

end Ended

theorem OutageStep.trans {l : Label} {a a' : Availability} (h : OutageStep s l key a)
    (same : a'.outage = a.outage) : OutageStep s l key a' := by
  simp only [Availability.outage, Prod.mk.injEq] at same
  obtain ⟨healthyUntil, retryAt, generation, failures⟩ := same
  cases h with
  | same outage =>
    refine .same ?_
    rw [← outage]
    simp only [Availability.outage, healthyUntil, retryAt, generation, failures]
  | failed ends count unhealthy ge le =>
    exact .failed ends (failures.trans count) (healthyUntil.trans unhealthy) (retryAt ▸ ge)
      (retryAt ▸ le)
  | cleared ends since count retry healthy =>
    exact .cleared ends since (failures.trans count) (retryAt.trans retry)
      (healthyUntil.trans healthy)

theorem finish_timed {outcome : Outcome} (counted : Counted keys none s) (h : Timed now s)
    (done : s.finish id outcome t = some s') :
    Timed now s' ∧ ∀ k, OutageStep s (.finish id outcome t) k (s'.stateAt k) := by
  obtain ⟨key, held, generation, healthy, found, rfl⟩ := Gate.finish_cases done
  have left : Timed now (s.ended id key generation outcome t) := ended_timed counted h found
  have steps (k : Key) : OutageStep s (.finish id outcome t) k
      ((s.ended id key generation outcome t).stateAt k) := ended_outage counted h found k
  cases held with
  | false => exact ⟨left, steps⟩
  | true =>
    have known : key ∈ (s.ended id key generation outcome t).states.map Prod.fst := by
      rw [Gate.keys_ended]
      exact counted.known _ (Keyed.mem_of_get? found)
    exact ⟨left.release known, fun k => (steps k).trans (SameOutage.release known k)⟩

end Steps

/-! ## Refusals -/

/-! ## Runs -/

def Label.Names (keys : List Key) : Label → Prop
  | .run key _ => key ∈ keys
  | _ => True

section Runs

variable {keys : List Key} {s s' : Gate} {l : Label} {now : ℚ}

theorem Counted.clock (h : Counted keys none s) (t : ℚ) : Counted keys none { s with clock := t } :=
  ⟨h.unique, h.within, h.ids, h.old, h.known, h.active, h.waiting, h.active_le, h.waiting_le,
    h.keyed, h.probes⟩

theorem Timed.clock (h : Timed now s) (t : ℚ) : Timed now { s with clock := t } :=
  ⟨h.calls, h.retry, h.allowed⟩

theorem timed_eq_some {t : Readings} {next : Option Gate} (h : s.timed t next = some s') :
    s.clock ≤ t.t₁ ∧ ∃ s₁, next = some s₁ ∧ s' = { s₁ with clock := t.t₄ } := by
  unfold Gate.timed at h
  split at h
  · rename_i le
    obtain ⟨s₁, h₁, rfl⟩ := Option.map_eq_some_iff.mp h
    exact ⟨le, s₁, h₁, rfl⟩
  · cases h

theorem next_spec (few : keys.length ≤ maxStates) (counted : Counted keys none s)
    (timed : Timed s.clock s) (names : l.Names keys) (next : gate.next s l = some s') :
    Counted keys none s' ∧ Timed s'.clock s' ∧ ∀ k, OutageStep s l k (s'.stateAt k) := by
  cases l with
  | run key t =>
    obtain ⟨le, s₁, h₁, rfl⟩ := timed_eq_some next
    obtain rfl := Option.some.inj h₁
    obtain ⟨same, later⟩ := run_timed few names counted timed le
    exact ⟨(Counted.run few names counted).clock _, later.clock _, fun k => .same (same k)⟩
  | cancel id =>
    obtain ⟨same, later⟩ := cancel_timed counted timed next
    have clock : s'.clock = s.clock := by
      simp only [gate, Gate.cancel] at next
      split at next
      · obtain rfl := Option.some.inj next
        rfl
      · cases next
    exact ⟨counted.cancel next, clock ▸ later, fun k => .same (same k)⟩
  | resume id t =>
    obtain ⟨le, s₁, h₁, rfl⟩ := timed_eq_some next
    obtain ⟨same, later⟩ := resume_timed counted timed le h₁
    exact ⟨(counted.resume h₁).clock _, later.clock _, fun k => .same (same k)⟩
  | finish id outcome t =>
    obtain ⟨le, s₁, h₁, rfl⟩ := timed_eq_some next
    obtain ⟨later, steps⟩ := finish_timed counted timed h₁
    have last : s.clock ≤ t.t₄ := ((le.trans t.le₁₂).trans t.le₂₃).trans t.le₃₄
    exact ⟨(counted.finish h₁).clock _, (later.mono last).clock _, steps⟩

theorem run_spec (few : keys.length ≤ maxStates) {start : ℚ} {ls : List Label}
    (names : ∀ l ∈ ls, l.Names keys) (run : gate.exec { clock := start } ls = some s) :
    Counted keys none s ∧ Timed s.clock s := by
  refine Machine.invariant_along (I := fun s => Counted keys none s ∧ Timed s.clock s)
    (fun s l s' inv names next => ?_) ?_ (Machine.Along.of_forall names _) run
  · obtain ⟨counted, timed, -⟩ := next_spec few inv.1 inv.2 names next
    exact ⟨counted, timed⟩
  · refine ⟨⟨.nil, List.forall_mem_nil _, .nil, List.forall_mem_nil _, List.forall_mem_nil _, rfl,
      rfl, Nat.zero_le _, Nat.zero_le _, fun k => ⟨rfl, rfl, rfl, .empty, rfl⟩,
      List.forall_mem_nil _⟩, ⟨List.forall_mem_nil _, ?_, trivial⟩⟩
    intro k r none_failed
    cases none_failed

end Runs

theorem availability_gate (keys : List Key) (few : keys.length ≤ maxStates) (start : ℚ)
    (ls : List Label) (names : ∀ l ∈ ls, l.Names keys) (s : Gate)
    (run : gate.exec { clock := start } ls = some s) :
    s.calls.countP Call.performs ≤ 2 ∧ s.calls.countP Call.waits ≤ 16 ∧
    (s.calls = [] → s.active = 0 ∧ s.waiting = 0 ∧ ∀ key, (s.stateAt key).active = 0 ∧
      (s.stateAt key).waiters = 0 ∧ (s.stateAt key).lock.locked = false) ∧
    (∀ key, countAt Call.probes key s.calls ≤ 1) ∧
    Allowed s.log ∧
    ∀ l s', l.Names keys → gate.next s l = some s' →
      ∀ key, OutageStep s l key (s'.stateAt key) := by
  obtain ⟨counted, timed⟩ := run_spec few names run
  refine ⟨counted.active ▸ counted.active_le, counted.waiting ▸ counted.waiting_le, fun idle => ?_,
    fun key => ?_, timed.allowed,
    fun l s' names next => (next_spec few counted timed names next).2.2⟩
  · refine ⟨by rw [counted.active, idle]; rfl, by rw [counted.waiting, idle]; rfl, fun key => ?_⟩
    obtain ⟨active, waiters, -, -, held⟩ := counted.keyed key
    rw [idle] at active waiters held
    refine ⟨active, waiters, ?_⟩
    cases locked : (s.stateAt key).lock.locked with
    | false => rfl
    | true => simp [locked, countAt] at held
  · have held := (counted.keyed key).held
    have fewer : countAt Call.probes key s.calls ≤ countAt Call.holds key s.calls := by
      refine List.countP_mono_left fun c hc => ?_
      simp only [Bool.and_eq_true]
      rintro ⟨probes, here⟩
      exact ⟨counted.probes c hc probes, here⟩
    cases locked : (s.stateAt key).lock.locked <;> simp [locked] at held <;> omega

/-- All readings of a step are the same. -/
def Readings.still (t : ℚ) : Readings := ⟨t, t, t, t, le_refl t, le_refl t, le_refl t⟩

/-- Another call waits for the first one, whose operation fails; it then resumes to the pause. -/
def failedProbe : List Label :=
  [.run ("svc", "loki") (.still 1), .run ("svc", "loki") (.still 2),
   .finish 0 (.failure "down" ⟨1, by norm_num, by norm_num⟩ 0) (.still 3),
   .resume 1 (.still 4)]

theorem failedProbe_gate :
    ∃ s, gate.exec { clock := 0 } failedProbe = some s ∧
      s.log = [.refused 1 (.paused 30), .refused 0 (.failed "down" 31),
        .failed 0 ("svc", "loki") 3 33, .started 0 ("svc", "loki") 1] ∧
      Allowed s.log ∧ s.calls = [] ∧ s.active = 0 ∧ s.waiting = 0 := by
  have names : ∀ l ∈ failedProbe, l.Names [("svc", "loki")] := by
    simp [failedProbe, Label.Names]
  obtain ⟨s, run, log, calls⟩ : ∃ s, gate.exec { clock := 0 } failedProbe = some s ∧
      s.log = [.refused 1 (.paused 30), .refused 0 (.failed "down" 31),
        .failed 0 ("svc", "loki") 3 33, .started 0 ("svc", "loki") 1] ∧ s.calls = [] :=
    ⟨_, rfl, by decide +kernel, by decide +kernel⟩
  obtain ⟨-, -, idle, -, allowed, -⟩ :=
    availability_gate [("svc", "loki")] (by decide) 0 failedProbe names s run
  exact ⟨s, run, log, allowed, calls, (idle calls).1, (idle calls).2.1⟩

end Relayna.Studio.ProviderAvailability
