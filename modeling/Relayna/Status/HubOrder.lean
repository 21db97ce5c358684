import Relayna.Contracts.Tabulated
import Relayna.Status.Hub

/-!
# Status events of one task are stored in the order of their delivery

The entry in the lock table serves exactly the handlers of its task that are inside
`_store_ordered`: the holder of its lock is in `set_history`, the others wait in the order in
which they were delivered, and `users` counts them. So there is never a second lock for a task,
whichever handlers raise or are cancelled.
-/
namespace Relayna.Status

open Transition FairLock Contracts Python

/-- The entry serves the handlers of the task that are inside `_store_ordered`. -/
structure Serves (s : Handlers) (taskId : String) (entry : Nat) : Prop where
  users : (s.entries entry).users = (s.entries entry).lock.present.length
  ordered : (s.entries entry).lock.present.Pairwise (· < ·)
  waiting : ∀ i, i ∈ (s.entries entry).lock.waiters ↔
    ∃ call, s.phase i = .waiting call entry ∧ call.taskId = taskId
  storing : ∀ i, (s.entries entry).lock.holder = some i ↔
    ∃ call, s.phase i = .storing call entry ∧ call.taskId = taskId

/-- `calls i` is what the `i`-th message passes to `_store_ordered`. -/
structure LocksInv (calls : Nat → Option StoreCall) (s : Handlers) : Prop where
  unstarted : ∀ i, s.started ≤ i → s.phase i = .unstarted
  shared : ∀ {i taskId entry}, (s.phase i).inside = some (taskId, entry) →
    s.taskLocks taskId = some entry
  serves : ∀ {taskId entry}, s.taskLocks taskId = some entry → Serves s taskId entry
  apart : ∀ {taskId taskId' entry}, s.taskLocks taskId = some entry →
    s.taskLocks taskId' = some entry → taskId = taskId'
  known : ∀ {taskId entry}, s.taskLocks taskId = some entry → entry < s.allocated
  waits : ∀ {i call entry}, s.phase i = .waiting call entry → calls i = some call
  wrote : ∀ {i call}, (i, call) ∈ s.writes → i < s.started ∧ calls i = some call
  ahead : ∀ {i j call call' entry}, (i, call) ∈ s.writes → s.phase j = .waiting call' entry →
    call.taskId = call'.taskId → i < j
  sorted : s.writes.Pairwise fun a b => a.2.taskId = b.2.taskId → a.1 < b.1

/-- Every entry in the table is in use. -/
structure HandlersInv (calls : Nat → Option StoreCall) (s : Handlers) : Prop extends
    LocksInv calls s where
  used : ∀ {taskId entry}, s.taskLocks taskId = some entry →
    (s.entries entry).lock.present ≠ []

variable {calls : Nat → Option StoreCall} {s t : Handlers} {taskId : String} {entry i : Nat}
  {call : StoreCall}

theorem Serves.present (h : Serves s taskId entry) (i : Nat) :
    i ∈ (s.entries entry).lock.present ↔ (s.phase i).inside = some (taskId, entry) := by
  rw [Lock.mem_present, h.storing, h.waiting]
  constructor
  · rintro (⟨call, hp, rfl⟩ | ⟨call, hp, rfl⟩) <;> rw [hp] <;> rfl
  · intro inside
    cases hp : s.phase i with
    | waiting call e =>
      rw [hp] at inside
      obtain ⟨rfl, rfl⟩ := Prod.mk.inj (Option.some.inj inside)
      exact Or.inr ⟨call, rfl, rfl⟩
    | storing call e =>
      rw [hp] at inside
      obtain ⟨rfl, rfl⟩ := Prod.mk.inj (Option.some.inj inside)
      exact Or.inl ⟨call, rfl, rfl⟩
    | _ =>
      rw [hp] at inside
      cases inside

/-- What the entry serves is not touched. -/
theorem Serves.frame (h : Serves s taskId entry) (same : t.entries entry = s.entries entry)
    (phase : ∀ i, t.phase i = s.phase i ∨
      (t.phase i).inside ≠ some (taskId, entry) ∧ (s.phase i).inside ≠ some (taskId, entry)) :
    Serves t taskId entry := by
  have moved : ∀ p : Phase, p.inside = some (taskId, entry) →
      ∀ i, t.phase i = p ↔ s.phase i = p := by
    intro p hp i
    obtain eq | ⟨here, there⟩ := phase i
    · rw [eq]
    · constructor
      · rintro rfl
        exact absurd hp here
      · rintro rfl
        exact absurd hp there
  refine ⟨by rw [same, h.users], by rw [same]; exact h.ordered, fun i => ?_, fun i => ?_⟩
  · rw [same, h.waiting]
    refine exists_congr fun call => and_congr_left fun hc => ?_
    exact (moved (.waiting call entry) (by rw [← hc]; rfl) i).symm
  · rw [same, h.storing]
    refine exists_congr fun call => and_congr_left fun hc => ?_
    exact (moved (.storing call entry) (by rw [← hc]; rfl) i).symm

/-- Who is inside has started. -/
theorem LocksInv.lt_started (h : LocksInv calls s) {e : String × Nat}
    (inside : (s.phase i).inside = some e) : i < s.started := by
  by_contra late
  rw [h.unstarted i (Nat.le_of_not_lt late)] at inside
  cases inside

/-! ## Into `_store_ordered` -/

theorem LocksInv.taskLock (h : LocksInv calls s) (taskId : String) :
    LocksInv calls (s.taskLock taskId).1 ∧
      (s.taskLock taskId).1.taskLocks taskId = some (s.taskLock taskId).2 := by
  unfold Handlers.taskLock
  split
  · rename_i entry known
    exact ⟨h, known⟩
  · rename_i missing
    have elsewhere : ∀ {taskId' entry}, s.taskLocks taskId' = some entry → taskId' ≠ taskId := by
      rintro _ entry known rfl
      rw [missing] at known
      cases known
    have outside : ∀ i entry, (s.phase i).inside ≠ some (taskId, entry) :=
      fun i entry inside => elsewhere (h.shared inside) rfl
    have newOrOld : ∀ {taskId' entry},
        Function.update s.taskLocks taskId (some s.allocated) taskId' = some entry →
        taskId' = taskId ∧ entry = s.allocated ∨ s.taskLocks taskId' = some entry := by
      intro taskId' entry known
      by_cases same : taskId' = taskId
      · subst same
        rw [Function.update_self] at known
        exact Or.inl ⟨rfl, (Option.some.inj known).symm⟩
      · rw [Function.update_of_ne same] at known
        exact Or.inr known
    refine ⟨⟨h.unstarted, ?_, ?_, ?_, ?_, h.waits, h.wrote, h.ahead, h.sorted⟩,
      Function.update_self _ _ _⟩
    · intro i taskId' entry inside
      have known := h.shared inside
      exact (Function.update_of_ne (elsewhere known) _ _).trans known
    · intro taskId' entry known
      obtain ⟨rfl, rfl⟩ | old := newOrOld known
      · refine ⟨by simp [TaskLockEntry.fresh], by simp [TaskLockEntry.fresh], ?_, ?_⟩
        · intro i
          simp only [Function.update_self, TaskLockEntry.fresh, Lock.free, List.not_mem_nil,
            false_iff, not_exists, not_and]
          intro call hp hc
          exact outside i s.allocated (by rw [hp, ← hc]; rfl)
        · intro i
          simp only [Function.update_self, TaskLockEntry.fresh, Lock.free, reduceCtorEq,
            false_iff, not_exists, not_and]
          intro call hp hc
          exact outside i s.allocated (by rw [hp, ← hc]; rfl)
      · refine (h.serves old).frame ?_ fun _ => Or.inl rfl
        exact Function.update_of_ne (Nat.ne_of_lt (h.known old)) _ _
    · intro a b entry ha hb
      obtain ⟨rfl, rfl⟩ | oldA := newOrOld ha
      · obtain ⟨rfl, -⟩ | oldB := newOrOld hb
        · rfl
        · exact absurd (h.known oldB) (Nat.lt_irrefl _)
      · obtain ⟨rfl, rfl⟩ | oldB := newOrOld hb
        · exact absurd (h.known oldA) (Nat.lt_irrefl _)
        · exact h.apart oldA oldB
    · intro taskId' entry known
      obtain ⟨-, rfl⟩ | old := newOrOld known
      · exact Nat.lt_succ_self _
      · exact Nat.lt_succ_of_lt (h.known old)

/-- All but the lock table stays as it is, and so do the entries that were in it. -/
theorem taskLock_frame (s : Handlers) (taskId : String) :
    (s.taskLock taskId).1.phase = s.phase ∧ (s.taskLock taskId).1.writes = s.writes ∧
      (s.taskLock taskId).1.started = s.started ∧
      (∀ taskId' ≠ taskId, (s.taskLock taskId).1.taskLocks taskId' = s.taskLocks taskId') ∧
      ∀ entry < s.allocated, (s.taskLock taskId).1.entries entry = s.entries entry := by
  unfold Handlers.taskLock
  split
  · exact ⟨rfl, rfl, rfl, fun _ _ => rfl, fun _ _ => rfl⟩
  · refine ⟨rfl, rfl, rfl, fun taskId' ne => ?_, fun entry lt => ?_⟩
    · exact Function.update_of_ne ne _ _
    · exact Function.update_of_ne (Nat.ne_of_lt lt) _ _

/-- One handler has moved. -/
theorem moved_cases {phase : Nat → Phase} {p q : Phase} {j : Nat}
    (h : Function.update phase i p j = q) : j = i ∧ q = p ∨ j ≠ i ∧ phase j = q := by
  by_cases same : j = i
  · subst same
    rw [Function.update_self] at h
    exact Or.inl ⟨rfl, h.symm⟩
  · rw [Function.update_of_ne same] at h
    exact Or.inr ⟨same, h⟩

@[simp] theorem join_entries :
    (s.join i call entry).entries = Function.update s.entries entry
      ⟨(s.entries entry).lock.request i, (s.entries entry).users + 1⟩ := by
  unfold Handlers.join
  simp only
  split <;> rfl

@[simp] theorem join_phase :
    (s.join i call entry).phase = Function.update s.phase i
      (if (s.entries entry).lock.idle then .storing call entry else .waiting call entry) := by
  unfold Handlers.join
  simp only
  split <;> rfl

@[simp] theorem join_taskLocks : (s.join i call entry).taskLocks = s.taskLocks := by
  unfold Handlers.join
  simp only
  split <;> rfl

@[simp] theorem join_started : (s.join i call entry).started = s.started := by
  unfold Handlers.join
  simp only
  split <;> rfl

@[simp] theorem join_allocated : (s.join i call entry).allocated = s.allocated := by
  unfold Handlers.join
  simp only
  split <;> rfl

theorem join_writes :
    (s.join i call entry).writes =
      if (s.entries entry).lock.idle then s.writes ++ [(i, call)] else s.writes := by
  unfold Handlers.join
  simp only
  split <;> rfl

/-- The handler that joins has been delivered after all that are inside. -/
theorem Serves.join (h : Serves s call.taskId entry) (outside : (s.phase i).inside = none)
    (last : ∀ j ∈ (s.entries entry).lock.present, j < i) :
    Serves (s.join i call entry) call.taskId entry := by
  have still : ∀ {j : Nat} {p : Phase}, p.inside ≠ none → s.phase j = p →
      Function.update s.phase i (if (s.entries entry).lock.idle then .storing call entry
        else .waiting call entry) j = p := by
    rintro j p inside rfl
    refine Function.update_of_ne ?_ _ _
    rintro rfl
    exact inside outside
  refine ⟨?_, ?_, fun j => ?_, fun j => ?_⟩
  · simp [h.users]
  · simp only [join_entries, Function.update_self, Lock.present_request]
    refine List.pairwise_append.mpr ⟨h.ordered, List.pairwise_singleton _ _, ?_⟩
    intro j hj k hk
    rw [List.mem_singleton.mp hk]
    exact last j hj
  · simp only [join_entries, join_phase, Function.update_self]
    unfold Lock.request
    split
    · rename_i idle
      simp only [List.not_mem_nil, false_iff, not_exists, not_and]
      intro call' hp hc
      obtain ⟨-, same⟩ | ⟨-, hp⟩ := moved_cases hp
      · cases same
      · have : j ∈ (s.entries entry).lock.present :=
          Lock.mem_present.mpr (Or.inr ((h.waiting j).mpr ⟨call', hp, hc⟩))
        rw [Lock.idle_iff.mp idle] at this
        cases this
    · rename_i busy
      rw [List.mem_append, List.mem_singleton, h.waiting]
      constructor
      · rintro (⟨call', hp, hc⟩ | rfl)
        · refine ⟨call', ?_, hc⟩
          have := still (by simp [Phase.inside]) hp
          rwa [if_neg busy] at this
        · exact ⟨call, Function.update_self _ _ _, rfl⟩
      · rintro ⟨call', hp, hc⟩
        obtain ⟨rfl, -⟩ | ⟨-, hp⟩ := moved_cases hp
        · exact Or.inr rfl
        · exact Or.inl ⟨call', hp, hc⟩
  · simp only [join_entries, join_phase, Function.update_self, Lock.holder_request]
    split
    · rename_i idle
      constructor
      · intro held
        obtain rfl := Option.some.inj held
        exact ⟨call, Function.update_self _ _ _, rfl⟩
      · rintro ⟨call', hp, hc⟩
        obtain ⟨rfl, -⟩ | ⟨-, hp⟩ := moved_cases hp
        · rfl
        · have : j ∈ (s.entries entry).lock.present :=
            Lock.mem_present.mpr (Or.inl ((h.storing j).mpr ⟨call', hp, hc⟩))
          rw [Lock.idle_iff.mp idle] at this
          cases this
    · rename_i busy
      rw [h.storing]
      constructor
      · rintro ⟨call', hp, hc⟩
        refine ⟨call', ?_, hc⟩
        have := still (by simp [Phase.inside]) hp
        rwa [if_neg busy] at this
      · rintro ⟨call', hp, hc⟩
        obtain ⟨-, same⟩ | ⟨-, hp⟩ := moved_cases hp
        · cases same
        · exact ⟨call', hp, hc⟩

theorem LocksInv.join (h : LocksInv calls s) (known : s.taskLocks call.taskId = some entry)
    (begun : i < s.started) (outside : (s.phase i).inside = none)
    (last : ∀ j, (s.phase j).inside ≠ none → j < i) (latest : ∀ w ∈ s.writes, w.1 < i)
    (called : calls i = some call) : LocksInv calls (s.join i call entry) := by
  have served := h.serves known
  have present : ∀ j ∈ (s.entries entry).lock.present, j < i := by
    intro j hj
    refine last j ?_
    rw [(served.present j).mp hj]
    exact Option.some_ne_none _
  refine ⟨?_, ?_, ?_, ?_, ?_, ?_, ?_, ?_, ?_⟩
  · intro j hj
    rw [join_started] at hj
    rw [join_phase, Function.update_of_ne (by omega)]
    exact h.unstarted j hj
  · intro j taskId' entry' inside
    rw [join_taskLocks]
    rw [join_phase] at inside
    by_cases hj : j = i
    · have here : (call.taskId, entry) = (taskId', entry') := by
        rw [hj, Function.update_self] at inside
        split at inside <;> exact Option.some.inj inside
      obtain ⟨rfl, rfl⟩ := Prod.mk.inj here
      exact known
    · rw [Function.update_of_ne hj] at inside
      exact h.shared inside
  · intro taskId' entry' known'
    rw [join_taskLocks] at known'
    by_cases same : entry' = entry
    · subst same
      obtain rfl := h.apart known known'
      exact served.join outside present
    · refine (h.serves known').frame ?_ fun j => ?_
      · rw [join_entries, Function.update_of_ne same]
      · rw [join_phase]
        by_cases hj : j = i
        · subst hj
          refine Or.inr ⟨?_, by simp [outside]⟩
          rw [Function.update_self]
          split <;> simp [Phase.inside, Ne.symm same]
        · exact Or.inl (Function.update_of_ne hj _ _)
  · intro a b e ha hb
    rw [join_taskLocks] at ha hb
    exact h.apart ha hb
  · intro taskId' e hk
    rw [join_taskLocks] at hk
    rw [join_allocated]
    exact h.known hk
  · intro j call' e hp
    rw [join_phase] at hp
    obtain ⟨rfl, same⟩ | ⟨-, hp⟩ := moved_cases hp
    · split at same
      · cases same
      · cases same
        exact called
    · exact h.waits hp
  · intro j call' hw
    rw [join_writes] at hw
    rw [join_started]
    split at hw
    · obtain hw | hw := List.mem_append.mp hw
      · exact h.wrote hw
      · obtain ⟨rfl, rfl⟩ := Prod.mk.inj (List.mem_singleton.mp hw)
        exact ⟨begun, called⟩
    · exact h.wrote hw
  · intro j k call' call'' e hw hp same
    rw [join_phase] at hp
    rw [join_writes] at hw
    obtain ⟨rfl, moved⟩ | ⟨-, waits⟩ := moved_cases hp
    · split at hw
      · rename_i idle
        rw [if_pos idle] at moved
        cases moved
      · exact latest _ hw
    · split at hw
      · rename_i idle
        obtain hw | hw := List.mem_append.mp hw
        · exact h.ahead hw waits same
        · -- nobody of this task was inside
          obtain ⟨rfl, rfl⟩ := Prod.mk.inj (List.mem_singleton.mp hw)
          have inside : (s.phase k).inside = some (call'.taskId, e) := by
            rw [waits, same]
            rfl
          obtain rfl := Option.some.inj (known.symm.trans (h.shared inside))
          have here := (served.present k).mpr inside
          rw [Lock.idle_iff.mp idle] at here
          cases here
      · exact h.ahead hw waits same
  · rw [join_writes]
    split
    · refine List.pairwise_append.mpr ⟨h.sorted, List.pairwise_singleton _ _, ?_⟩
      intro a ha b hb _
      rw [List.mem_singleton.mp hb]
      exact latest a ha
    · exact h.sorted

theorem HandlersInv.storeOrdered (h : HandlersInv calls s)
    (called : calls s.started = some call) :
    HandlersInv calls (Handlers.storeOrdered { s with started := s.started + 1 } s.started
      call) := by
  have begun : LocksInv calls { s with started := s.started + 1 } := by
    refine ⟨fun j hj => h.unstarted j (Nat.le_of_succ_le hj), h.shared, ?_, h.apart, h.known,
      h.waits, ?_, h.ahead, h.sorted⟩
    · intro taskId entry known
      exact (h.serves known).frame rfl fun _ => Or.inl rfl
    · intro j call hw
      exact ⟨Nat.lt_succ_of_lt (h.wrote hw).1, (h.wrote hw).2⟩
  unfold Handlers.storeOrdered
  obtain ⟨ready, known⟩ := begun.taskLock call.taskId
  obtain ⟨phase, writes, started, tables, entries⟩ :=
    taskLock_frame { s with started := s.started + 1 } call.taskId
  generalize Handlers.taskLock { s with started := s.started + 1 } call.taskId = locked at *
  obtain ⟨u, entry⟩ := locked
  refine ⟨ready.join known ?_ ?_ ?_ ?_ called, ?_⟩
  · rw [started]
    exact Nat.lt_succ_self _
  · rw [phase]
    change (s.phase s.started).inside = none
    rw [h.unstarted _ (Nat.le_refl _)]
    rfl
  · intro j inside
    rw [phase] at inside
    by_contra late
    change (s.phase j).inside ≠ none at inside
    rw [h.unstarted j (Nat.le_of_not_lt late)] at inside
    exact inside rfl
  · intro w hw
    rw [writes] at hw
    exact (h.wrote hw).1
  · intro taskId' entry' known'
    rw [join_taskLocks] at known'
    rw [join_entries]
    by_cases same : entry' = entry
    · subst same
      simp
    · have ne : taskId' ≠ call.taskId := by
        rintro rfl
        exact same (Option.some.inj (known'.symm.trans known))
      rw [tables taskId' ne] at known'
      rw [Function.update_of_ne same, entries entry' (h.known known')]
      exact h.used known'

/-! ## The lock is handed over -/

theorem Serves.nodup (h : Serves s taskId entry) : (s.entries entry).lock.present.Nodup :=
  h.ordered.imp Nat.ne_of_lt

theorem Serves.grant {lock : Lock Nat} (h : Serves s call.taskId entry)
    (hp : s.phase i = .waiting call entry) (granted : (s.entries entry).lock.grant i = some lock)
    (entries : t.entries entry = ⟨lock, (s.entries entry).users⟩)
    (phase : t.phase = Function.update s.phase i (.storing call entry)) :
    Serves t call.taskId entry := by
  obtain ⟨free, held, waiters⟩ := Lock.grant_eq_some granted
  have present := Lock.present_grant granted
  have others : i ∉ lock.waiters := by
    have nodup := h.nodup
    rw [← present, Lock.present, held] at nodup
    exact (List.nodup_cons.mp nodup).1
  refine ⟨?_, ?_, fun j => ?_, fun j => ?_⟩
  · rw [entries, present, h.users]
  · rw [entries, present]
    exact h.ordered
  · rw [entries, phase]
    constructor
    · intro hj
      obtain ⟨call', old, hc⟩ := (h.waiting j).mp (waiters ▸ List.mem_cons_of_mem _ hj)
      refine ⟨call', ?_, hc⟩
      rwa [Function.update_of_ne]
      rintro rfl
      exact others hj
    · rintro ⟨call', new, hc⟩
      obtain ⟨-, same⟩ | ⟨ne, old⟩ := moved_cases new
      · cases same
      · have := (h.waiting j).mpr ⟨call', old, hc⟩
        rw [waiters] at this
        exact (List.mem_cons.mp this).resolve_left ne
  · rw [entries, phase, held]
    constructor
    · intro hj
      obtain rfl := Option.some.inj hj
      exact ⟨call, Function.update_self _ _ _, rfl⟩
    · rintro ⟨call', new, hc⟩
      obtain ⟨rfl, -⟩ | ⟨-, old⟩ := moved_cases new
      · rfl
      · have := (h.storing j).mpr ⟨call', old, hc⟩
        rw [free] at this
        cases this

theorem HandlersInv.acquire (h : HandlersInv calls s) (step : s.acquire i = some t) :
    HandlersInv calls t := by
  unfold Handlers.acquire at step
  split at step
  · rename_i call entry hp
    obtain ⟨lock, granted, rfl⟩ := Option.map_eq_some_iff.mp step
    have inside : (s.phase i).inside = some (call.taskId, entry) := by
      rw [hp]
      rfl
    have known := h.shared inside
    have served := h.serves known
    obtain ⟨free, held, waiters⟩ := Lock.grant_eq_some granted
    have begun := h.lt_started inside
    refine ⟨⟨?_, ?_, ?_, h.apart, h.known, ?_, ?_, ?_, ?_⟩, ?_⟩
    · intro j hj
      exact (Function.update_of_ne (Nat.ne_of_gt (Nat.lt_of_lt_of_le begun hj)) _ _).trans
        (h.unstarted j hj)
    · intro j taskId' entry' inside'
      by_cases hj : j = i
      · rw [hj] at inside'
        have here : some (call.taskId, entry) = some (taskId', entry') := by
          simpa [Handlers.move, Phase.inside] using inside'
        obtain ⟨rfl, rfl⟩ := Prod.mk.inj (Option.some.inj here)
        exact known
      · exact h.shared ((congrArg Phase.inside (Function.update_of_ne hj _ _)).symm.trans inside')
    · intro taskId' entry' known'
      by_cases same : entry' = entry
      · subst same
        obtain rfl := h.apart known known'
        exact served.grant hp granted (Function.update_self _ _ _) rfl
      · refine (h.serves known').frame (Function.update_of_ne same _ _) fun j => ?_
        by_cases hj : j = i
        · subst hj
          refine Or.inr ⟨?_, ?_⟩
          · simp [Handlers.move, Phase.inside, Ne.symm same]
          · rw [inside]
            simp [Ne.symm same]
        · exact Or.inl (Function.update_of_ne hj _ _)
    · intro j call' e hw
      obtain ⟨-, same⟩ | ⟨-, old⟩ := moved_cases hw
      · cases same
      · exact h.waits old
    · intro j call' hw
      obtain hw | hw := List.mem_append.mp hw
      · exact h.wrote hw
      · obtain ⟨rfl, rfl⟩ := Prod.mk.inj (List.mem_singleton.mp hw)
        exact ⟨begun, h.waits hp⟩
    · intro j k call' call'' e hw hk same
      obtain ⟨-, moved⟩ | ⟨ne, old⟩ := moved_cases hk
      · cases moved
      · obtain hw | hw := List.mem_append.mp hw
        · exact h.ahead hw old same
        · obtain ⟨rfl, rfl⟩ := Prod.mk.inj (List.mem_singleton.mp hw)
          have inside' : (s.phase k).inside = some (call'.taskId, e) := by
            rw [old, same]
            rfl
          obtain rfl := Option.some.inj (known.symm.trans (h.shared inside'))
          have here := (served.present k).mpr inside'
          have ordered := served.ordered
          rw [Lock.present, free, waiters] at here ordered
          exact (List.pairwise_cons.mp ordered).1 k ((List.mem_cons.mp here).resolve_left ne)
    · refine List.pairwise_append.mpr ⟨h.sorted, List.pairwise_singleton _ _, ?_⟩
      intro a ha b hb same
      rw [List.mem_singleton.mp hb] at same ⊢
      exact h.ahead ha hp same
    · intro taskId' entry' known'
      by_cases same : entry' = entry
      · subst same
        simp only [Function.update_self, Lock.present_grant granted]
        exact h.used known'
      · simp only [Function.update_of_ne same]
        exact h.used known'
  · cases step

/-! ## Out of `_store_ordered` -/

theorem Serves.leave (h : Serves s taskId entry)
    (inside : (s.phase i).inside = some (taskId, entry)) {p : Phase} (outside : p.inside = none)
    (entries : t.entries entry =
      ⟨(s.entries entry).lock.leave i, (s.entries entry).users - 1⟩)
    (phase : t.phase = Function.update s.phase i p) : Serves t taskId entry := by
  have here := (h.present i).mpr inside
  have present := Lock.present_leave here
  have moved : ∀ {j : Nat} {q : Phase}, q.inside ≠ none →
      (Function.update s.phase i p j = q ↔ s.phase j = q ∧ j ≠ i) := by
    intro j q hq
    constructor
    · intro new
      obtain ⟨-, rfl⟩ | ⟨ne, old⟩ := moved_cases new
      · exact absurd outside hq
      · exact ⟨old, ne⟩
    · rintro ⟨old, ne⟩
      rwa [Function.update_of_ne ne]
  refine ⟨?_, ?_, fun j => ?_, fun j => ?_⟩
  · rw [entries, present, h.users, List.length_erase_of_mem here]
  · rw [entries, present]
    exact h.ordered.sublist List.erase_sublist
  · rw [entries, phase, Lock.mem_waiters_leave h.nodup, h.waiting]
    constructor
    · rintro ⟨⟨call, old, hc⟩, ne⟩
      exact ⟨call, (moved (by simp [Phase.inside])).mpr ⟨old, ne⟩, hc⟩
    · rintro ⟨call, new, hc⟩
      obtain ⟨old, ne⟩ := (moved (by simp [Phase.inside])).mp new
      exact ⟨⟨call, old, hc⟩, ne⟩
  · rw [entries, phase, Lock.holder_leave, h.storing]
    constructor
    · rintro ⟨⟨call, old, hc⟩, ne⟩
      exact ⟨call, (moved (by simp [Phase.inside])).mpr ⟨old, ne⟩, hc⟩
    · rintro ⟨call, new, hc⟩
      obtain ⟨old, ne⟩ := (moved (by simp [Phase.inside])).mp new
      exact ⟨⟨call, old, hc⟩, ne⟩

/-- A handler moves to `p`, outside of `_store_ordered`. -/
theorem HandlersInv.of_outside (h : HandlersInv calls s) {p : Phase} (outside : p.inside = none)
    (phase : t.phase = Function.update s.phase i p) (writes : t.writes = s.writes)
    (begun : i < t.started) (started : s.started ≤ t.started)
    (allocated : t.allocated = s.allocated)
    (kept : ∀ {taskId entry}, t.taskLocks taskId = some entry → s.taskLocks taskId = some entry)
    (shared : ∀ {j taskId entry}, j ≠ i → (s.phase j).inside = some (taskId, entry) →
      t.taskLocks taskId = some entry)
    (serves : ∀ {taskId entry}, t.taskLocks taskId = some entry → Serves t taskId entry ∧
      (t.entries entry).lock.present ≠ []) : HandlersInv calls t := by
  have waits : ∀ {j call entry}, t.phase j = .waiting call entry →
      s.phase j = .waiting call entry := by
    intro j call entry hp
    rw [phase] at hp
    obtain ⟨-, rfl⟩ | ⟨-, old⟩ := moved_cases hp
    · cases outside
    · exact old
  refine ⟨⟨?_, ?_, fun known => (serves known).1, fun ha hb => h.apart (kept ha) (kept hb), ?_,
    fun hp => h.waits (waits hp), ?_, ?_, ?_⟩, fun known => (serves known).2⟩
  · intro j hj
    rw [phase, Function.update_of_ne (by omega)]
    exact h.unstarted j (Nat.le_trans started hj)
  · intro j taskId entry inside
    rw [phase] at inside
    by_cases hj : j = i
    · rw [hj, Function.update_self, outside] at inside
      cases inside
    · rw [Function.update_of_ne hj] at inside
      exact shared hj inside
  · intro taskId entry known
    rw [allocated]
    exact h.known (kept known)
  · intro j call hw
    rw [writes] at hw
    exact ⟨Nat.lt_of_lt_of_le (h.wrote hw).1 started, (h.wrote hw).2⟩
  · intro j k call call' entry hw hp same
    rw [writes] at hw
    exact h.ahead hw (waits hp) same
  · rw [writes]
    exact h.sorted

/-- A handler that is not inside and does not enter. -/
theorem HandlersInv.move (h : HandlersInv calls s) {p : Phase} (outside : p.inside = none)
    (before : (s.phase i).inside = none) (phase : t.phase = Function.update s.phase i p)
    (writes : t.writes = s.writes) (begun : i < t.started) (started : s.started ≤ t.started)
    (allocated : t.allocated = s.allocated) (tables : t.taskLocks = s.taskLocks)
    (entries : t.entries = s.entries) : HandlersInv calls t := by
  refine h.of_outside outside phase writes begun started allocated (fun known => tables ▸ known)
    (fun _ inside => tables ▸ h.shared inside) fun {taskId entry} known => ⟨?_, ?_⟩
  · rw [tables] at known
    refine (h.serves known).frame (by rw [entries]) fun j => ?_
    rw [phase]
    by_cases hj : j = i
    · subst hj
      exact Or.inr ⟨by simp [outside], by simp [before]⟩
    · exact Or.inl (Function.update_of_ne hj _ _)
  · rw [tables] at known
    rw [entries]
    exact h.used known

theorem HandlersInv.leave (h : HandlersInv calls s)
    (inside : (s.phase i).inside = some (taskId, entry)) {p : Phase} (outside : p.inside = none) :
    HandlersInv calls ((s.leave i taskId entry).move i p) := by
  have known := h.shared inside
  have served := h.serves known
  have here := (served.present i).mpr inside
  have begun := h.lt_started inside
  have left : ((s.entries entry).lock.leave i).present =
      (s.entries entry).lock.present.erase i := Lock.present_leave here
  have count : (s.entries entry).users - 1 = ((s.entries entry).lock.leave i).present.length := by
    rw [left, served.users, List.length_erase_of_mem here]
  -- what becomes of the other entries does not depend on whether this one is dropped
  have others : ∀ {u : Handlers}, u.phase = Function.update s.phase i p →
      u.entries = Function.update s.entries entry
        ⟨(s.entries entry).lock.leave i, (s.entries entry).users - 1⟩ →
      ∀ {taskId' entry'}, entry' ≠ entry → s.taskLocks taskId' = some entry' →
        Serves u taskId' entry' ∧ (u.entries entry').lock.present ≠ [] := by
    intro u phase entries taskId' entry' ne known'
    have same : u.entries entry' = s.entries entry' := by
      rw [entries, Function.update_of_ne ne]
    refine ⟨(h.serves known').frame same fun j => ?_, same ▸ h.used known'⟩
    rw [phase]
    by_cases hj : j = i
    · subst hj
      refine Or.inr ⟨by simp [outside], ?_⟩
      rw [inside]
      simp [Ne.symm ne]
    · exact Or.inl (Function.update_of_ne hj _ _)
  unfold Handlers.leave
  simp only
  split
  · rename_i last
    have empty : ((s.entries entry).lock.leave i).present = [] :=
      List.length_eq_zero_iff.mp (count.symm.trans last.1)
    have alone : ∀ j, j ≠ i → (s.phase j).inside ≠ some (taskId, entry) := by
      intro j ne inside'
      have := (List.mem_erase_of_ne ne).mpr ((served.present j).mpr inside')
      rw [← left, empty] at this
      cases this
    have kept : ∀ {taskId' entry'},
        Function.update s.taskLocks taskId none taskId' = some entry' →
        taskId' ≠ taskId ∧ s.taskLocks taskId' = some entry' := by
      intro taskId' entry' known'
      have ne : taskId' ≠ taskId := by
        rintro rfl
        rw [Function.update_self] at known'
        cases known'
      rw [Function.update_of_ne ne] at known'
      exact ⟨ne, known'⟩
    refine h.of_outside outside rfl rfl begun (Nat.le_refl _) rfl (fun known' => (kept known').2)
      ?_ ?_
    · intro j taskId' entry' ne inside'
      have known' := h.shared inside'
      refine (Function.update_of_ne ?_ _ _).trans known'
      rintro rfl
      obtain rfl := Option.some.inj (known.symm.trans known')
      exact alone j ne inside'
    · intro taskId' entry' known'
      obtain ⟨ne, old⟩ := kept known'
      refine others rfl rfl ?_ old
      rintro rfl
      exact ne (h.apart old known)
  · rename_i notLast
    have used : ((s.entries entry).lock.leave i).present ≠ [] := by
      intro empty
      refine notLast ⟨?_, known⟩
      rw [count, empty]
      rfl
    refine h.of_outside outside rfl rfl begun (Nat.le_refl _) rfl id (fun _ => h.shared) ?_
    intro taskId' entry' known'
    by_cases same : entry' = entry
    · subst same
      obtain rfl := h.apart known known'
      refine ⟨served.leave inside outside (Function.update_self _ _ _) rfl, ?_⟩
      simpa [Handlers.move] using used
    · exact others rfl rfl same known'

/-! ## Whole runs -/

section Runs

variable {hub : StatusHub} {h h' : Hub}

theorem HandlersInv.mono {calls' : Nat → Option StoreCall} (inv : HandlersInv calls s)
    (more : ∀ i call, calls i = some call → calls' i = some call) : HandlersInv calls' s :=
  { inv with
    waits := fun hp => more _ _ (inv.waits hp)
    wrote := fun hw => ⟨(inv.wrote hw).1, more _ _ (inv.wrote hw).2⟩ }

theorem HandlersInv.init : HandlersInv calls .init where
  unstarted _ _ := rfl
  shared inside := by cases inside
  serves known := by cases known
  apart known := by cases known
  known known := by cases known
  waits hp := by cases hp
  wrote hw := by cases hw
  ahead hw := by cases hw
  sorted := .nil
  used known := by cases known

@[simp] theorem finish_toHandlers (i : Nat) (raised : Bool) (handlers : Handlers) :
    (h.finish i raised handlers).toHandlers = handlers.move i .finished := by
  unfold Hub.finish
  simp only
  split <;> rfl

@[simp] theorem finish_delivered (i : Nat) (raised : Bool) (handlers : Handlers) :
    (h.finish i raised handlers).delivered = h.delivered := by
  unfold Hub.finish
  simp only
  split <;> rfl

theorem HandlersInv.begin (inv : HandlersInv (h.calls hub) h.toHandlers)
    (step : h.begin hub i = some h') :
    h'.delivered = h.delivered ∧ HandlersInv (h.calls hub) h'.toHandlers := by
  unfold Hub.begin at step
  split at step
  · cases step
  · rename_i body run message
    split at step
    · cases step
    · rename_i first
      obtain rfl : i = h.started := not_not.mp first
      obtain rfl := Option.some.inj step
      have before : (h.phase h.started).inside = none := by
        rw [inv.unstarted _ (Nat.le_refl _)]
        rfl
      refine ⟨rfl, ?_⟩
      simp only
      split
      · exact inv.move rfl before rfl rfl (Nat.lt_succ_self _) (Nat.le_succ _) rfl rfl rfl
      · split
        · exact inv.move rfl before rfl rfl (Nat.lt_succ_self _) (Nat.le_succ _) rfl rfl rfl
        · rename_i call hc
          refine inv.storeOrdered ?_
          unfold Hub.calls
          rw [message]
          exact hc

theorem HandlersInv.stored (inv : HandlersInv (h.calls hub) h.toHandlers) {ok : Bool}
    (step : h.stored i ok = some h') :
    h'.delivered = h.delivered ∧ HandlersInv (h.calls hub) h'.toHandlers := by
  unfold Hub.stored at step
  split at step
  · rename_i call entry hp
    obtain rfl := Option.some.inj step
    exact ⟨rfl, inv.leave (by rw [hp]; rfl) rfl⟩
  · cases step

/-- A handler that settles its message ends. -/
theorem HandlersInv.finish (inv : HandlersInv (h.calls hub) h.toHandlers) {stored raised : Bool}
    (hp : h.phase i = .settling stored) :
    HandlersInv (h.calls hub) (h.finish i raised h.toHandlers).toHandlers := by
  rw [finish_toHandlers]
  have begun : i < h.started := by
    by_contra late
    rw [inv.unstarted i (Nat.le_of_not_lt late)] at hp
    cases hp
  exact inv.move rfl (by rw [hp]; rfl) rfl rfl begun (Nat.le_refl _) rfl rfl rfl

theorem HandlersInv.settled (inv : HandlersInv (h.calls hub) h.toHandlers) {raised : Bool}
    (step : h.settled i raised = some h') :
    h'.delivered = h.delivered ∧ HandlersInv (h.calls hub) h'.toHandlers := by
  unfold Hub.settled at step
  split at step
  · rename_i stored hp
    obtain rfl := Option.some.inj step
    exact ⟨finish_delivered _ _ _, inv.finish hp⟩
  · cases step

theorem HandlersInv.interrupt (inv : HandlersInv (h.calls hub) h.toHandlers)
    (step : h.interrupt i = some h') :
    h'.delivered = h.delivered ∧ HandlersInv (h.calls hub) h'.toHandlers := by
  unfold Hub.interrupt at step
  split at step
  · split at step
    · rename_i call entry hp
      obtain rfl := Option.some.inj step
      refine ⟨finish_delivered _ _ _, ?_⟩
      rw [finish_toHandlers]
      exact inv.leave (by rw [hp]; rfl) rfl
    · rename_i call entry hp
      obtain rfl := Option.some.inj step
      refine ⟨finish_delivered _ _ _, ?_⟩
      rw [finish_toHandlers]
      exact inv.leave (by rw [hp]; rfl) rfl
    · rename_i stored hp
      obtain rfl := Option.some.inj step
      exact ⟨finish_delivered _ _ _, inv.finish hp⟩
    · cases step
  · cases step

/-- A step of the dispatcher leaves the handlers alone. -/
theorem HandlersInv.dispatch (inv : HandlersInv (h.calls hub) h.toHandlers)
    (delivered : h.delivered <+: h'.delivered) (handlers : h'.toHandlers = h.toHandlers) :
    HandlersInv (h'.calls hub) h'.toHandlers := by
  rw [handlers]
  refine inv.mono fun i call hc => ?_
  obtain ⟨message, hm, hc⟩ := Option.bind_eq_some_iff.mp hc
  obtain ⟨rest, hr⟩ := delivered
  unfold Hub.calls
  rw [← hr, List.getElem?_append_left (List.getElem?_eq_some_iff.mp hm).1, hm]
  exact hc

theorem HandlersInv.next (inv : HandlersInv (h.calls hub) h.toHandlers) {l : HandlerStep}
    (step : (handlerMachine hub).next h l = some h') :
    HandlersInv (h'.calls hub) h'.toHandlers := by
  have same : ∀ {h' : Hub}, h'.delivered = h.delivered →
      HandlersInv (h.calls hub) h'.toHandlers → HandlersInv (h'.calls hub) h'.toHandlers := by
    intro h' delivered inv'
    unfold Hub.calls at inv' ⊢
    rwa [delivered]
  unfold handlerMachine at step
  cases l with
  | begin i => exact same (inv.begin step).1 (inv.begin step).2
  | acquire i =>
    obtain ⟨handlers, acquired, rfl⟩ := Option.map_eq_some_iff.mp step
    exact inv.acquire acquired
  | stored i ok => exact same (inv.stored step).1 (inv.stored step).2
  | settled i raised => exact same (inv.settled step).1 (inv.settled step).2
  | interrupt i => exact same (inv.interrupt step).1 (inv.interrupt step).2
  | deliver body =>
    obtain ⟨-, step⟩ := Option.ite_none_right_eq_some.mp step
    obtain rfl := Option.some.inj step
    exact inv.dispatch (List.prefix_append _ _) rfl
  | run | stop | fetchFails | fetchTimesOut =>
    obtain ⟨-, step⟩ := Option.ite_none_right_eq_some.mp step
    obtain rfl := Option.some.inj step
    exact inv.dispatch (List.prefix_refl _) rfl
  | acquireSemaphore =>
    obtain ⟨-, step⟩ := Option.ite_none_right_eq_some.mp step
    split at step <;> obtain rfl := Option.some.inj step <;>
      exact inv.dispatch (List.prefix_refl _) rfl
  | cancelDispatcher =>
    simp only at step
    split at step
    · cases step
    all_goals
      obtain rfl := Option.some.inj step
      exact inv.dispatch (List.prefix_refl _) rfl
  | drained =>
    obtain ⟨-, step⟩ := Option.ite_none_left_eq_some.mp step
    split at step
    · obtain rfl := Option.some.inj step
      exact inv.dispatch (List.prefix_refl _) rfl
    · obtain rfl := Option.some.inj step
      exact inv.dispatch (List.prefix_refl _) rfl
    · cases step
  | cancel i =>
    obtain rfl := Option.some.inj step
    exact inv.dispatch (List.prefix_refl _) rfl

/-- What holds of the order in which status events are stored. -/
structure StoredInOrder (hub : StatusHub) (h : Hub) : Prop where
  /-- Two calls of `set_history` for one task are never under way together. -/
  exclusive : ∀ {i j call call' entry entry'}, h.phase i = .storing call entry →
    h.phase j = .storing call' entry' → call.taskId = call'.taskId → i = j
  /-- They begin in the order of delivery, and each is that of its message. -/
  sorted : h.writes.Pairwise fun a b => a.2.taskId = b.2.taskId → a.1 < b.1
  wrote : ∀ {i call}, (i, call) ∈ h.writes → h.calls hub i = some call
  /-- Who waits, waits for a handler of the same task. -/
  unblocked : ∀ {i call entry}, h.phase i = .waiting call entry →
    (∃ j call' entry', h.phase j = .storing call' entry' ∧ call'.taskId = call.taskId) ∨
      ∃ j call' entry', h.phase j = .waiting call' entry' ∧ call'.taskId = call.taskId ∧
        ((handlerMachine hub).next h (.acquire j)).isSome
  /-- There is an entry in the table while a handler of the task is inside, and no longer. -/
  table : ∀ taskId, (h.taskLocks taskId).isSome ↔
    ∃ i entry, (h.phase i).inside = some (taskId, entry)

theorem HandlersInv.storedInOrder (inv : HandlersInv (h.calls hub) h.toHandlers) :
    StoredInOrder hub h where
  exclusive := by
    intro i j call call' entry entry' hi hj same
    have known := inv.shared (by rw [hi]; rfl)
    have known' := inv.shared (by rw [hj]; rfl)
    rw [← same] at known'
    obtain rfl := Option.some.inj (known.symm.trans known')
    have holder := ((inv.serves known).storing i).mpr ⟨call, hi, rfl⟩
    have holder' := ((inv.serves known).storing j).mpr ⟨call', hj, same.symm⟩
    exact Option.some.inj (holder.symm.trans holder')
  sorted := inv.sorted
  wrote hw := (inv.wrote hw).2
  unblocked := by
    intro i call entry hi
    have known := inv.shared (by rw [hi]; rfl)
    have served := inv.serves known
    cases held : (h.entries entry).lock.holder with
    | some j =>
      obtain ⟨call', hj, same⟩ := (served.storing j).mp held
      exact Or.inl ⟨j, call', entry, hj, same⟩
    | none =>
      obtain ⟨j, hj, granted⟩ := Lock.exists_grant held ((served.waiting i).mpr ⟨call, hi, rfl⟩)
      obtain ⟨call', hp, same⟩ := (served.waiting j).mp hj
      refine Or.inr ⟨j, call', entry, hp, same, ?_⟩
      unfold handlerMachine Handlers.acquire
      simp only [hp, Option.isSome_map]
      exact granted
  table := by
    intro taskId
    constructor
    · intro entry
      obtain ⟨entry, known⟩ := Option.isSome_iff_exists.mp entry
      obtain ⟨i, hi⟩ := List.exists_mem_of_ne_nil _ (inv.used known)
      exact ⟨i, entry, ((inv.serves known).present i).mp hi⟩
    · rintro ⟨i, entry, inside⟩
      rw [inv.shared inside]
      rfl

theorem status_events_stored_in_order (hub : StatusHub) (ls : List HandlerStep) (h : Hub)
    (run : (handlerMachine hub).exec .init ls = some h) : StoredInOrder hub h :=
  HandlersInv.storedInOrder <| (handlerMachine hub).invariant
    (I := fun h => HandlersInv (h.calls hub) h.toHandlers) (fun _ _ _ inv => inv.next) .init run

end Runs

def statusEventBody (taskId : UInt8) : Bytes :=
  ascii "\x7b\"task_id\":\"" ++ [taskId] ++ ascii "\"\x7d"

def twoTaskHub : StatusHub where
  codec := .tabulated [(statusEventBody 97, .dict [("task_id", .str "a")]),
    (statusEventBody 98, .dict [("task_id", .str "b")])]
  aliasConfig := none
  sanitizeMetaKeys := ["auth_token"]
  prefetch := 200

/-- Two events of one task and one of another. The first call of `set_history` is cancelled. -/
def cancelledFirst : List HandlerStep :=
  [.run, .acquireSemaphore, .deliver (statusEventBody 97), .acquireSemaphore,
    .deliver (statusEventBody 97), .begin 0, .begin 1, .acquireSemaphore,
    .deliver (statusEventBody 98), .begin 2, .cancel 0, .interrupt 0, .acquire 1, .stored 1 false]

theorem status_events_stored_in_order_cancelled :
    ∃ h, (handlerMachine twoTaskHub).exec .init cancelledFirst = some h ∧
      h.writes.map (fun w => (w.1, w.2.taskId)) = [(0, "a"), (2, "b"), (1, "a")] ∧
      h.taskLocks "a" = none ∧ h.taskLocks "b" = some 1 ∧ StoredInOrder twoTaskHub h := by
  have given : ((handlerMachine twoTaskHub).exec .init cancelledFirst).map
      (fun h => (h.writes.map (fun w => (w.1, w.2.taskId)), h.taskLocks "a", h.taskLocks "b")) =
      some ([(0, "a"), (2, "b"), (1, "a")], none, some 1) := by
    decide +kernel
  obtain ⟨h, run, facts⟩ := Option.map_eq_some_iff.mp given
  obtain ⟨writes, facts⟩ := Prod.mk.inj facts
  obtain ⟨a, b⟩ := Prod.mk.inj facts
  exact ⟨h, run, writes, a, b, status_events_stored_in_order twoTaskHub cancelledFirst h run⟩

end Relayna.Status
