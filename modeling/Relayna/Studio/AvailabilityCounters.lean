import Mathlib.Data.List.Perm.Subperm
import Relayna.Studio.ProviderAvailability

/-!
# The counters of the availability gate

The counters are the numbers of the calls that wait and that perform, in all and for each key, and
the lock of a key is held by at most one call: `Counted`. Within a step the lock may be held by the
call that takes the step, which is no pending call then.
-/
namespace Relayna.Studio.ProviderAvailability

open AsyncLock Transition

/-! ## The states of the keys -/

namespace Gate

variable {s : Gate} {key k : Key} {g : Availability → Availability}

theorem stateAt_modify (known : key ∈ s.states.map Prod.fst) :
    (s.modify key g).stateAt k = if k = key then g (s.stateAt key) else s.stateAt k := by
  have found : Keyed.get? Prod.fst k (Keyed.amend Prod.fst key
      (fun entry => (entry.1, g entry.2)) s.states) = if k = key then
        (Keyed.get? Prod.fst key s.states).map fun entry => (entry.1, g entry.2)
      else Keyed.get? Prod.fst k s.states :=
    Keyed.get?_amend fun _ => rfl
  unfold stateAt modify
  dsimp only
  rw [found]
  split
  · rename_i same
    cases present : Keyed.get? Prod.fst key s.states with
    | none => exact absurd known (Keyed.get?_eq_none.mp present)
    | some entry => rfl
  · rfl

theorem stateAt_modify_self (known : key ∈ s.states.map Prod.fst) :
    (s.modify key g).stateAt key = g (s.stateAt key) := by
  rw [stateAt_modify known, if_pos rfl]

theorem stateAt_modify_ne (known : key ∈ s.states.map Prod.fst) (other : k ≠ key) :
    (s.modify key g).stateAt k = s.stateAt k := by
  rw [stateAt_modify known, if_neg other]

theorem keys_modify : (s.modify key g).states.map Prod.fst = s.states.map Prod.fst :=
  Keyed.map_key_amend fun _ => rfl

/-- With at most as many keys as there may be states, no state is dropped. -/
theorem stateFor_ok {keys : List Key} (few : keys.length ≤ maxStates) (hkey : key ∈ keys)
    (unique : (s.states.map Prod.fst).Nodup) (within : ∀ k ∈ s.states.map Prod.fst, k ∈ keys) :
    ∃ states, s.stateFor key = some { s with states := states } ∧
      (states.map Prod.fst).Nodup ∧ (∀ k, k ∈ states.map Prod.fst ↔
        k = key ∨ k ∈ s.states.map Prod.fst) ∧
      ∀ k, { s with states := states }.stateAt k = s.stateAt k := by
  unfold stateFor
  cases present : Keyed.get? Prod.fst key s.states with
  | some entry =>
    have here : entry.1 = key := Keyed.key_of_get? present
    have hentry := Keyed.mem_of_get? present
    have others : (s.states.filter (·.1 ≠ key)).map Prod.fst =
        (s.states.map Prod.fst).filter (· ≠ key) := by
      rw [List.filter_map]
      rfl
    refine ⟨_, rfl, ?_, fun k => ?_, fun k => ?_⟩
    · rw [List.map_append, others, List.map_singleton, here, List.nodup_append]
      refine ⟨unique.filter _, List.nodup_singleton _, fun k hk k' hk' => ?_⟩
      rw [List.mem_singleton.mp hk']
      simpa using (List.mem_filter.mp hk).2
    · rw [List.map_append, others, List.map_singleton, here, List.mem_append, List.mem_filter,
        List.mem_singleton]
      by_cases same : k = key
      · simp [same]
      · simp [same]
    · unfold stateAt
      dsimp only
      rw [Keyed.get?_append, Keyed.get?_filter]
      by_cases same : k = key
      · subst same
        rw [present, if_pos rfl]
        simp [Keyed.get?, here]
      · have miss : ¬entry.1 = k := fun h => same (h.symm.trans here)
        rw [if_neg same]
        simp [Keyed.get?, miss]
  | none =>
    have absent := Keyed.get?_eq_none.mp present
    have longer : (key :: s.states.map Prod.fst).Nodup := List.nodup_cons.mpr ⟨absent, unique⟩
    have sub : key :: s.states.map Prod.fst ⊆ keys := by
      intro k hk
      rcases List.mem_cons.mp hk with rfl | hk
      · exact hkey
      · exact within k hk
    have fits := (List.subperm_of_subset longer sub).length_le
    rw [List.length_cons, List.length_map] at fits
    have room : ¬maxStates ≤ s.states.length := by omega
    rw [if_neg room]
    refine ⟨_, rfl, ?_, fun k => ?_, fun k => ?_⟩
    · rw [List.map_append, List.map_singleton, ← List.concat_eq_append]
      exact unique.concat absent
    · simp [or_comm]
    · unfold stateAt
      dsimp only
      rw [Keyed.get?_append]
      cases found : Keyed.get? Prod.fst k s.states with
      | some entry => rfl
      | none =>
        by_cases same : key = k
        · simp [same, Keyed.get?]
        · simp [same, Keyed.get?]

end Gate

section Conclude

variable {a : Availability} {generation : Nat} {outcome : Outcome} {t : ℚ}

theorem lock_conclude : (a.conclude generation outcome t).lock = a.lock := by
  cases outcome <;> simp only [Availability.conclude]
  split <;> rfl

theorem active_conclude : (a.conclude generation outcome t).active = a.active := by
  cases outcome <;> simp only [Availability.conclude]
  split <;> rfl

theorem waiters_conclude : (a.conclude generation outcome t).waiters = a.waiters := by
  cases outcome <;> simp only [Availability.conclude]
  split <;> rfl

end Conclude

/-- The gate after an operation has ended, up to the release of the lock. -/
def Gate.ended (s : Gate) (id : Nat) (key : Key) (generation : Nat) (outcome : Outcome)
    (t : Readings) : Gate :=
  { (s.drop id).modify key fun a =>
      { a.conclude generation outcome t.t₁ with active := a.active - 1 } with
    active := s.active - 1
    log := (((s.drop id).modify key fun a => a.conclude generation outcome t.t₁).record id key
      outcome t.t₁ t.t₂).log }

theorem Gate.finish_eq {s : Gate} {id : Nat} {key : Key} {held healthy : Bool} {generation : Nat}
    {outcome : Outcome} {t : Readings}
    (found : s.call? id = some ⟨id, key, .performing held generation healthy⟩) :
    s.finish id outcome t = some (if held then (s.ended id key generation outcome t).release key
      else s.ended id key generation outcome t) := by
  have same : { (((s.drop id).modify key fun a => a.conclude generation outcome t.t₁).record id key
      outcome t.t₁ t.t₂).modify key (fun a => { a with active := a.active - 1 }) with
      active := s.active - 1 } = s.ended id key generation outcome t := by
    have twice : Keyed.amend Prod.fst key
        (fun entry => (entry.1, { entry.2 with active := entry.2.active - 1 }))
        (Keyed.amend Prod.fst key
          (fun entry => (entry.1, entry.2.conclude generation outcome t.t₁)) s.states) =
        Keyed.amend Prod.fst key (fun entry => (entry.1,
          { entry.2.conclude generation outcome t.t₁ with
            active := (entry.2.conclude generation outcome t.t₁).active - 1 })) s.states :=
      Keyed.amend_amend fun _ => rfl
    simp only [active_conclude] at twice
    cases outcome <;> simp only [Gate.ended, Gate.record, Gate.modify, Gate.drop, twice]
  unfold Gate.finish
  rw [found]
  dsimp only
  rw [← same]
  cases outcome <;> rfl

theorem Gate.finish_cases {s s' : Gate} {id : Nat} {outcome : Outcome} {t : Readings}
    (done : s.finish id outcome t = some s') : ∃ key held generation healthy,
      s.call? id = some ⟨id, key, .performing held generation healthy⟩ ∧
        s' = if held then (s.ended id key generation outcome t).release key
          else s.ended id key generation outcome t := by
  cases found : s.call? id with
  | none =>
    rw [Gate.finish, found] at done
    cases done
  | some c =>
    obtain ⟨id', key, phase⟩ := c
    obtain rfl : id' = id := Keyed.key_of_get? found
    cases phase with
    | waiting =>
      rw [Gate.finish, found] at done
      cases done
    | performing held generation healthy =>
      rw [Gate.finish_eq found] at done
      exact ⟨key, held, generation, healthy, rfl, (Option.some.inj done).symm⟩

theorem Gate.keys_ended {s : Gate} {id : Nat} {key : Key} {generation : Nat} {outcome : Outcome}
    {t : Readings} :
    (s.ended id key generation outcome t).states.map Prod.fst = s.states.map Prod.fst := by
  have moved : ((s.drop id).modify key fun a =>
      { a.conclude generation outcome t.t₁ with active := a.active - 1 }).states.map Prod.fst =
      s.states.map Prod.fst := Gate.keys_modify
  exact moved

theorem Gate.stateAt_ended {s : Gate} {id : Nat} {key k : Key} {generation : Nat}
    {outcome : Outcome} {t : Readings} (known : key ∈ s.states.map Prod.fst) :
    (s.ended id key generation outcome t).stateAt k = if k = key then
      { (s.stateAt key).conclude generation outcome t.t₁ with
        active := (s.stateAt key).active - 1 } else s.stateAt k := by
  have moved : ((s.drop id).modify key fun a =>
      { a.conclude generation outcome t.t₁ with active := a.active - 1 }).stateAt k =
      if k = key then { (s.stateAt key).conclude generation outcome t.t₁ with
        active := (s.stateAt key).active - 1 } else s.stateAt k :=
    Gate.stateAt_modify known
  exact moved

/-! ## Counters -/

def Call.performs (c : Call) : Bool :=
  match c.phase with
  | .performing .. => true
  | .waiting => false

def Call.waits (c : Call) : Bool := !c.performs

/-- The call holds the lock of its key. -/
def Call.holds (c : Call) : Bool :=
  match c.phase with
  | .performing held _ _ => held
  | .waiting => false

/-- Its operation was started while the key was not healthy. -/
def Call.probes (c : Call) : Bool :=
  match c.phase with
  | .performing _ _ healthy => !healthy
  | .waiting => false

/-- The calls of a key with a property. -/
def countAt (p : Call → Bool) (key : Key) (calls : List Call) : Nat :=
  calls.countP fun c => p c && c.key = key

/-- The counters and the lock of a key. `running` says that the call that takes the step holds the
lock. -/
structure KeyCounted (calls : List Call) (running : Bool) (key : Key) (a : Availability) :
    Prop where
  active : a.active = countAt Call.performs key calls
  waiters : a.waiters = countAt Call.waits key calls
  queued : a.lock.waiters.length = a.waiters
  fair : a.lock.Fair
  held : countAt Call.holds key calls + (if running then 1 else 0) = if a.lock.locked then 1 else 0

structure Counted (keys : List Key) (running : Option Key) (s : Gate) : Prop where
  unique : (s.states.map Prod.fst).Nodup
  within : ∀ k ∈ s.states.map Prod.fst, k ∈ keys
  ids : (s.calls.map Call.id).Nodup
  old : ∀ c ∈ s.calls, c.id < s.next
  known : ∀ c ∈ s.calls, c.key ∈ s.states.map Prod.fst
  active : s.active = s.calls.countP Call.performs
  waiting : s.waiting = s.calls.countP Call.waits
  active_le : s.active ≤ maxActive
  waiting_le : s.waiting ≤ maxWaiting
  keyed : ∀ k, KeyCounted s.calls (running = some k) k (s.stateAt k)
  probes : ∀ c ∈ s.calls, c.probes = true → c.holds = true

section CountAt

variable {p : Call → Bool} {key : Key} {calls : List Call} {c : Call}

theorem countAt_append :
    countAt p key (calls ++ [c]) = countAt p key calls + if p c && c.key = key then 1 else 0 := by
  simp [countAt, List.countP_append, List.countP_singleton]

theorem countAt_filter (unique : (calls.map Call.id).Nodup)
    (found : Keyed.get? Call.id c.id calls = some c) :
    countAt p key (calls.filter (·.id ≠ c.id)) + (if p c && c.key = key then 1 else 0) =
      countAt p key calls :=
  Keyed.countP_filter_ne unique found

end CountAt

namespace KeyCounted

variable {calls : List Call} {running : Bool} {key : Key} {a : Availability} {c : Call}

/-- A call of another key comes. -/
theorem append_other (h : KeyCounted calls running key a) (other : c.key ≠ key) :
    KeyCounted (calls ++ [c]) running key a := by
  have same (p : Call → Bool) : countAt p key (calls ++ [c]) = countAt p key calls := by
    rw [countAt_append]
    simp [other]
  refine ⟨?_, ?_, h.queued, h.fair, ?_⟩
  · rw [same, h.active]
  · rw [same, h.waiters]
  · rw [same, h.held]

/-- A call of another key goes. -/
theorem filter_other (h : KeyCounted calls running key a) (unique : (calls.map Call.id).Nodup)
    (found : Keyed.get? Call.id c.id calls = some c) (other : c.key ≠ key) :
    KeyCounted (calls.filter (·.id ≠ c.id)) running key a := by
  have same (p : Call → Bool) : countAt p key (calls.filter (·.id ≠ c.id)) =
      countAt p key calls := by
    rw [← countAt_filter unique found]
    simp [other]
  refine ⟨?_, ?_, h.queued, h.fair, ?_⟩
  · rw [same, h.active]
  · rw [same, h.waiters]
  · rw [same, h.held]

end KeyCounted

namespace Counted

variable {keys : List Key} {running : Option Key} {s : Gate} {key : Key} {id : Nat}
  {g : Availability → Availability}

/-- A change at one key. -/
theorem modify {running' : Option Key} (h : Counted keys running s)
    (known : key ∈ s.states.map Prod.fst) (others : ∀ k ≠ key, running' = some k ↔ running = some k)
    (here : KeyCounted s.calls (running' = some key) key (g (s.stateAt key))) :
    Counted keys running' (s.modify key g) where
  unique := by rw [Gate.keys_modify]; exact h.unique
  within := by rw [Gate.keys_modify]; exact h.within
  ids := h.ids
  old := h.old
  known := by rw [Gate.keys_modify]; exact h.known
  active := h.active
  waiting := h.waiting
  active_le := h.active_le
  waiting_le := h.waiting_le
  keyed := by
    intro k
    by_cases same : k = key
    · subst same
      rw [Gate.stateAt_modify_self known]
      exact here
    · rw [Gate.stateAt_modify_ne known same, decide_eq_decide.mpr (others k same)]
      exact h.keyed k
  probes := h.probes

theorem refuse (h : Counted keys running s) (reason : Refusal) :
    Counted keys running (s.refuse id reason) :=
  ⟨h.unique, h.within, h.ids, h.old, h.known, h.active, h.waiting, h.active_le, h.waiting_le,
    h.keyed, h.probes⟩

/-- The lock that the step holds is released. -/
theorem release (h : Counted keys (some key) s) (known : key ∈ s.states.map Prod.fst) :
    Counted keys none (s.release key) := by
  obtain ⟨active, waiters, queued, fair, held⟩ := h.keyed key
  refine h.modify known (fun k other => by simp [Ne.symm other]) ⟨active, waiters, ?_, ?_, ?_⟩
  · simpa [Lock.release] using queued
  · exact fair.release
  · cases locked : (s.stateAt key).lock.locked <;> simp [locked] at held
    simp [Lock.release, held]

/-- The step takes a lock that is available. -/
theorem take (h : Counted keys none s) (known : key ∈ s.states.map Prod.fst)
    (available : (s.stateAt key).lock.available = true) :
    Counted keys (some key) (s.modify key fun a => { a with lock := a.lock.take }) := by
  obtain ⟨active, waiters, queued, fair, held⟩ := h.keyed key
  refine h.modify known (fun k other => by simp [Ne.symm other])
    ⟨active, waiters, queued, .take available, ?_⟩
  rw [Lock.available, Bool.and_eq_true, Bool.not_eq_true'] at available
  rw [available.1] at held
  simp [Lock.take] at held ⊢
  exact held

/-- A call comes, and the state of its key changes with it. -/
theorem append {running' : Option Key} {c : Call} {active waiting : Nat} {log : List Event}
    (h : Counted keys running s) (known : c.key ∈ s.states.map Prod.fst)
    (fresh : c.id ∉ s.calls.map Call.id) (lt : c.id < s.next)
    (others : ∀ k ≠ c.key, running' = some k ↔ running = some k)
    (hactive : active = s.active + if c.performs then 1 else 0) (active_le : active ≤ maxActive)
    (hwaiting : waiting = s.waiting + if c.waits then 1 else 0) (waiting_le : waiting ≤ maxWaiting)
    (here : KeyCounted (s.calls ++ [c]) (running' = some c.key) c.key (g (s.stateAt c.key)))
    (probes : c.probes = true → c.holds = true) :
    Counted keys running' { s.modify c.key g with
      active := active, waiting := waiting, calls := s.calls ++ [c], log := log } where
  unique := by
    show ((s.modify c.key g).states.map Prod.fst).Nodup
    rw [Gate.keys_modify]
    exact h.unique
  within := by
    show ∀ k ∈ (s.modify c.key g).states.map Prod.fst, k ∈ keys
    rw [Gate.keys_modify]
    exact h.within
  ids := by
    rw [List.map_append, List.map_singleton, ← List.concat_eq_append]
    exact h.ids.concat fresh
  old := by
    rw [List.forall_mem_append, List.forall_mem_singleton]
    exact ⟨h.old, lt⟩
  known := by
    show ∀ d ∈ s.calls ++ [c], d.key ∈ (s.modify c.key g).states.map Prod.fst
    rw [Gate.keys_modify, List.forall_mem_append, List.forall_mem_singleton]
    exact ⟨h.known, known⟩
  active := by
    rw [hactive, h.active, List.countP_append, List.countP_singleton]
  waiting := by
    rw [hwaiting, h.waiting, List.countP_append, List.countP_singleton]
  active_le := active_le
  waiting_le := waiting_le
  keyed := by
    intro k
    show KeyCounted (s.calls ++ [c]) (running' = some k) k ((s.modify c.key g).stateAt k)
    by_cases same : k = c.key
    · subst same
      rw [Gate.stateAt_modify_self known]
      exact here
    · rw [Gate.stateAt_modify_ne known same, decide_eq_decide.mpr (others k same)]
      exact (h.keyed k).append_other (Ne.symm same)
  probes := by
    rw [List.forall_mem_append, List.forall_mem_singleton]
    exact ⟨h.probes, probes⟩

/-- A call goes, and the state of its key changes with it. -/
theorem drop {running' : Option Key} {c : Call} {active waiting : Nat} {log : List Event}
    (h : Counted keys running s) (found : Keyed.get? Call.id c.id s.calls = some c)
    (others : ∀ k ≠ c.key, running' = some k ↔ running = some k)
    (hactive : active + (if c.performs then 1 else 0) = s.active)
    (hwaiting : waiting + (if c.waits then 1 else 0) = s.waiting)
    (here : KeyCounted (s.calls.filter (·.id ≠ c.id)) (running' = some c.key) c.key
      (g (s.stateAt c.key))) :
    Counted keys running' { (s.drop c.id).modify c.key g with
      active := active, waiting := waiting, log := log } where
  unique := by
    show ((s.modify c.key g).states.map Prod.fst).Nodup
    rw [Gate.keys_modify]
    exact h.unique
  within := by
    show ∀ k ∈ (s.modify c.key g).states.map Prod.fst, k ∈ keys
    rw [Gate.keys_modify]
    exact h.within
  ids := h.ids.sublist (List.filter_sublist.map _)
  old d hd := h.old d (List.mem_of_mem_filter hd)
  known := by
    show ∀ d ∈ s.calls.filter (·.id ≠ c.id), d.key ∈ (s.modify c.key g).states.map Prod.fst
    rw [Gate.keys_modify]
    exact fun d hd => h.known d (List.mem_of_mem_filter hd)
  active := by
    have counted := Keyed.countP_filter_ne (p := Call.performs) h.ids found
    rw [← h.active] at counted
    exact Nat.add_right_cancel (hactive.trans counted.symm)
  waiting := by
    have counted := Keyed.countP_filter_ne (p := Call.waits) h.ids found
    rw [← h.waiting] at counted
    exact Nat.add_right_cancel (hwaiting.trans counted.symm)
  active_le := by
    have := h.active_le
    show active ≤ maxActive
    omega
  waiting_le := by
    have := h.waiting_le
    show waiting ≤ maxWaiting
    omega
  keyed := by
    intro k
    show KeyCounted (s.calls.filter (·.id ≠ c.id)) (running' = some k) k
      ((s.modify c.key g).stateAt k)
    have known := h.known c (Keyed.mem_of_get? found)
    by_cases same : k = c.key
    · subst same
      rw [Gate.stateAt_modify_self known]
      exact here
    · rw [Gate.stateAt_modify_ne known same, decide_eq_decide.mpr (others k same)]
      exact (h.keyed k).filter_other h.ids found (Ne.symm same)
  probes d hd := h.probes d (List.mem_of_mem_filter hd)

/-- `_perform`, by a call that holds the lock of its key or by one that holds none. -/
theorem perform {held : Bool} {t : ℚ} (h : Counted keys (if held then some key else none) s)
    (known : key ∈ s.states.map Prod.fst) (fresh : id ∉ s.calls.map Call.id) (lt : id < s.next)
    (healthy : held = false → t < (s.stateAt key).healthyUntil) :
    Counted keys none (s.perform id key held t) := by
  unfold Gate.perform
  split
  · cases held with
    | true => exact (h.refuse _).release known
    | false => exact h.refuse _
  · rename_i room
    obtain ⟨active, waiters, queued, fair, lock⟩ := h.keyed key
    refine h.append (c := ⟨id, key, .performing held _ _⟩) known fresh lt ?_ ?_ ?_ rfl h.waiting_le
      ⟨?_, ?_, queued, fair, ?_⟩ ?_
    · intro k other
      cases held <;> simp [Ne.symm other]
    · rfl
    · show s.active + 1 ≤ maxActive
      omega
    · rw [countAt_append, ← active]
      simp [Call.performs]
    · rw [countAt_append, ← waiters]
      simp [Call.waits, Call.performs]
    · rw [countAt_append, ← lock]
      cases held <;> simp [Call.holds]
    · intro probes
      by_contra unheld
      rw [Bool.not_eq_true] at unheld
      have now := healthy unheld
      simp [Call.probes, now] at probes

theorem probe {t t' : ℚ} (h : Counted keys (some key) s)
    (known : key ∈ s.states.map Prod.fst) (fresh : id ∉ s.calls.map Call.id) (lt : id < s.next) :
    Counted keys none (s.probe id key t t') := by
  unfold Gate.probe
  dsimp only
  split
  · exact (h.refuse _).release known
  · split
    · exact perform h known fresh lt (by simp)
    · rename_i healthy
      have known' : key ∈ (s.release key).states.map Prod.fst := by
        rw [Gate.release, Gate.keys_modify]
        exact known
      have released : Counted keys (if false then some key else none) (s.release key) :=
        h.release known
      refine released.perform known' fresh lt fun _ => ?_
      rw [Gate.release, Gate.stateAt_modify_self known]
      exact not_le.mp healthy

/-- An acquire that is not contended does not yield. -/
theorem available (h : Counted keys none s)
    (uncontended : ¬((s.stateAt key).lock.locked || (s.stateAt key).waiters ≠ 0) = true) :
    (s.stateAt key).lock.available = true := by
  have queued := (h.keyed key).queued
  simp only [Bool.or_eq_true, decide_eq_true_eq, not_or, Bool.not_eq_true, not_not] at uncontended
  rw [uncontended.2, List.length_eq_zero_iff] at queued
  simp [Lock.available, uncontended.1, queued]

theorem enter {t : Readings} (h : Counted keys none s) (known : key ∈ s.states.map Prod.fst)
    (fresh : id ∉ s.calls.map Call.id) (lt : id < s.next) :
    Counted keys none (s.enter id key t) := by
  have known' (g : Availability → Availability) : key ∈ (s.modify key g).states.map Prod.fst := by
    rw [Gate.keys_modify]
    exact known
  unfold Gate.enter
  dsimp only
  split
  · exact h.refuse _
  · split
    · split
      · split
        · exact h.refuse _
        · rename_i room
          split
          · rename_i available
            exact (h.take known available).probe (known' _) fresh lt
          · obtain ⟨active, waiters, queued, fair, lock⟩ := h.keyed key
            refine h.append (c := ⟨id, key, .waiting⟩) known fresh lt (by simp) rfl h.active_le rfl
              ?_ ⟨?_, ?_, ?_, fair.enqueue id, ?_⟩ (by simp [Call.probes])
            · show s.waiting + 1 ≤ maxWaiting
              omega
            · rw [countAt_append, ← active]
              simp [Call.performs]
            · rw [countAt_append, ← waiters]
              simp [Call.waits, Call.performs]
            · simp [Lock.enqueue, queued]
            · rw [countAt_append, if_neg (by simp [Call.holds]), Nat.add_zero]
              exact lock
      · rename_i uncontended
        exact (h.take known (h.available uncontended)).probe (known' _) fresh lt
    · rename_i healthy
      have idle : Counted keys (if false then some key else none) s := h
      exact idle.perform known fresh lt fun _ => not_le.mp healthy

/-- A new call, with the states in another order or one more of them. -/
theorem withStates {states : List (Key × Availability)} (h : Counted keys none s)
    (unique : (states.map Prod.fst).Nodup) (within : ∀ k ∈ states.map Prod.fst, k ∈ keys)
    (old : ∀ k ∈ s.states.map Prod.fst, k ∈ states.map Prod.fst)
    (same : ∀ k, { s with states := states }.stateAt k = s.stateAt k) :
    Counted keys none { s with states := states, next := s.next + 1 } where
  unique := unique
  within := within
  ids := h.ids
  old c hc := (h.old c hc).trans (Nat.lt_succ_self _)
  known c hc := old c.key (h.known c hc)
  active := h.active
  waiting := h.waiting
  active_le := h.active_le
  waiting_le := h.waiting_le
  keyed k := by
    show KeyCounted s.calls (none = some k) k ({ s with states := states }.stateAt k)
    rw [same k]
    exact h.keyed k
  probes := h.probes

theorem run {t : Readings} (few : keys.length ≤ maxStates) (hkey : key ∈ keys)
    (h : Counted keys none s) : Counted keys none (s.run key t) := by
  obtain ⟨states, made, unique, mem, same⟩ :=
    Gate.stateFor_ok (s := { s with next := s.next + 1 }) few hkey h.unique h.within
  have within (k : Key) (hk : k ∈ states.map Prod.fst) : k ∈ keys := by
    rcases (mem k).mp hk with rfl | old
    · exact hkey
    · exact h.within k old
  have ready := h.withStates unique within (fun k hk => (mem k).mpr (Or.inr hk)) same
  have fresh : s.next ∉ s.calls.map Call.id := by
    intro taken
    obtain ⟨c, hc, same⟩ := List.mem_map.mp taken
    exact absurd (h.old c hc) (by omega)
  unfold Gate.run
  dsimp only
  rw [made]
  exact ready.enter ((mem key).mpr (Or.inl rfl)) fresh (Nat.lt_succ_self _)

theorem cancel {s' : Gate} (h : Counted keys none s) (done : s.cancel id = some s') :
    Counted keys none s' := by
  unfold Gate.cancel at done
  split at done
  · rename_i key found
    obtain rfl := Option.some.inj done
    obtain ⟨active, waiters, queued, fair, held⟩ := h.keyed key
    refine h.modify (h.known _ (Keyed.mem_of_get? found)) (fun _ _ => Iff.rfl)
      ⟨active, waiters, ?_, fair.cancel id, held⟩
    simpa [Lock.cancel] using queued
  · cases done

theorem resume {s' : Gate} {t : Readings} (h : Counted keys none s)
    (done : s.resume id t = some s') : Counted keys none s' := by
  unfold Gate.resume at done
  split at done
  · rename_i id' key found
    obtain ⟨⟨lock, taken⟩, resumed, rfl⟩ := Option.map_eq_some_iff.mp done
    obtain rfl : id' = id := Keyed.key_of_get? found
    have hc := Keyed.mem_of_get? found
    have known := h.known _ hc
    obtain ⟨active, waiters, queued, fair, held⟩ := h.keyed key
    obtain ⟨fair', locked, free, shorter⟩ := fair.resume resumed
    have counts (p : Call → Bool) : countAt p key (s.calls.filter (·.id ≠ id')) +
        (if p ⟨id', key, .waiting⟩ && decide (key = key) then 1 else 0) = countAt p key s.calls :=
      countAt_filter (c := ⟨id', key, .waiting⟩) h.ids found
    have performs : countAt Call.performs key (s.calls.filter (·.id ≠ id')) =
        countAt Call.performs key s.calls := by
      have count := counts Call.performs
      rwa [if_neg (by simp [Call.performs]), Nat.add_zero] at count
    have waits : countAt Call.waits key (s.calls.filter (·.id ≠ id')) + 1 =
        countAt Call.waits key s.calls := by
      have count := counts Call.waits
      rwa [if_pos (by simp [Call.waits, Call.performs])] at count
    have holds : countAt Call.holds key (s.calls.filter (·.id ≠ id')) =
        countAt Call.holds key s.calls := by
      have count := counts Call.holds
      rwa [if_neg (by simp [Call.holds]), Nat.add_zero] at count
    have left : Counted keys (if taken then some key else none)
        { ((s.drop id').modify key fun a => { a with waiters := a.waiters - 1, lock := lock }) with
          waiting := s.waiting - 1 } := by
      refine h.drop (c := ⟨id', key, .waiting⟩) found ?_ rfl ?_ ⟨?_, ?_, ?_, fair', ?_⟩
      · intro k other
        cases taken <;> simp [Ne.symm other]
      · have total := List.countP_pos_iff.mpr
          ⟨_, hc, show Call.waits ⟨id', key, .waiting⟩ = true from rfl⟩
        rw [← h.waiting] at total
        show s.waiting - 1 + 1 = s.waiting
        omega
      · exact active.trans performs.symm
      · show (s.stateAt key).waiters - 1 = countAt Call.waits key (s.calls.filter (·.id ≠ id'))
        omega
      · show lock.waiters.length = (s.stateAt key).waiters - 1
        omega
      · show countAt Call.holds key (s.calls.filter (·.id ≠ id')) + _ = if lock.locked then 1 else 0
        rw [holds, locked]
        cases taken with
        | true =>
          rw [free rfl] at held ⊢
          simpa using held
        | false => simpa using held
    have known' : key ∈ (((s.drop id').modify key fun a =>
        { a with waiters := a.waiters - 1, lock := lock }).states.map Prod.fst) := by
      rw [Gate.keys_modify]
      exact known
    have gone : id' ∉ (s.calls.filter (·.id ≠ id')).map Call.id := by
      simp
    dsimp only
    cases taken with
    | true => exact left.probe known' gone (h.old _ hc)
    | false => exact left.refuse _
  · cases done

theorem finish {s' : Gate} {outcome : Outcome} {t : Readings} (h : Counted keys none s)
    (done : s.finish id outcome t = some s') : Counted keys none s' := by
  obtain ⟨key, held, generation, healthy, found, rfl⟩ := Gate.finish_cases done
  have hc := Keyed.mem_of_get? found
  have known := h.known _ hc
  obtain ⟨active, waiters, queued, fair, lock⟩ := h.keyed key
  have counts (p : Call → Bool) : countAt p key (s.calls.filter (·.id ≠ id)) +
      (if p ⟨id, key, .performing held generation healthy⟩ && decide (key = key) then 1
        else 0) = countAt p key s.calls :=
    countAt_filter (c := ⟨id, key, .performing held generation healthy⟩) h.ids found
  have performs : countAt Call.performs key (s.calls.filter (·.id ≠ id)) + 1 =
      countAt Call.performs key s.calls := by
    have count := counts Call.performs
    rwa [if_pos (by simp [Call.performs])] at count
  have waits : countAt Call.waits key (s.calls.filter (·.id ≠ id)) =
      countAt Call.waits key s.calls := by
    have count := counts Call.waits
    rwa [if_neg (by simp [Call.waits, Call.performs]), Nat.add_zero] at count
  have holds : countAt Call.holds key (s.calls.filter (·.id ≠ id)) +
      (if held then 1 else 0) = countAt Call.holds key s.calls := by
    rw [← counts Call.holds]
    cases held <;> simp [Call.holds]
  have left : Counted keys (if held then some key else none)
      (s.ended id key generation outcome t) := by
    refine h.drop (c := ⟨id, key, .performing held generation healthy⟩) found ?_ ?_ rfl
      ⟨?_, ?_, ?_, ?_, ?_⟩
    · intro k other
      cases held <;> simp [Ne.symm other]
    · have total := List.countP_pos_iff.mpr ⟨_, hc,
        show Call.performs ⟨id, key, .performing held generation healthy⟩ = true from rfl⟩
      rw [← h.active] at total
      show s.active - 1 + 1 = s.active
      omega
    · show (s.stateAt key).active - 1 = countAt Call.performs key (s.calls.filter (·.id ≠ id))
      omega
    · show ((s.stateAt key).conclude generation outcome t.t₁).waiters = _
      rw [waiters_conclude]
      exact waiters.trans waits.symm
    · show ((s.stateAt key).conclude generation outcome t.t₁).lock.waiters.length =
        ((s.stateAt key).conclude generation outcome t.t₁).waiters
      rw [waiters_conclude, lock_conclude]
      exact queued
    · show ((s.stateAt key).conclude generation outcome t.t₁).lock.Fair
      rw [lock_conclude]
      exact fair
    · show countAt Call.holds key (s.calls.filter (·.id ≠ id)) + _ =
        if ((s.stateAt key).conclude generation outcome t.t₁).lock.locked then 1 else 0
      rw [lock_conclude, ← lock, ← holds]
      cases held <;> simp
  have known' : key ∈ (s.ended id key generation outcome t).states.map Prod.fst := by
    rw [Gate.keys_ended]
    exact known
  cases held with
  | true => exact left.release known'
  | false => exact left

end Counted

end Relayna.Studio.ProviderAvailability
