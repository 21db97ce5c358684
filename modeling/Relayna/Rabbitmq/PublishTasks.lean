import Relayna.Consumer.BatchPublish
import Relayna.Consumer.MapBounded
import Mathlib.Data.Nat.Find

/-!
# What is on the queue when `publish_tasks` raises

Both modes prepare every task before they publish any. In a batch envelope the priority and the
routing key are checked before the one message is published as well. The individual mode checks
them in the operation that `map_bounded` calls with each task, so that other tasks may have been
published when a check fails.

The operation awaits the connection, checks the task and awaits the exchange. `publish` is the
moment its message reaches the exchange; the operation returns only afterwards. Each of its awaits
may fail or be cancelled. Tasks are known by their position in the list.
-/
namespace Relayna.Rabbitmq

open Consumer Contracts MapBounded Python Transition

/-- How a topology finds the routing key of a task: `TaskIdRoutingStrategy`,
`TaskTypeRoutingStrategy` and `SharedStatusWorkflowTopology`. -/
inductive TaskRouting where
  | tasksRoutingKey (key : String)
  | taskType (aliasConfig : Option ContractAliasConfig)
  | workflow

def TaskRouting.refuseWorkflow : TaskRouting → Except Exc Unit
  | .workflow => .error (.error "RuntimeError"
      "SharedStatusWorkflowTopology requires publish_to_stage(...) or publish_to_entry(...)")
  | _ => .ok ()

/-- `task_routing_key`. -/
def TaskRouting.taskRoutingKey (text : Text) (task : Value) :
    TaskRouting → Except Exc String
  | .tasksRoutingKey key => .ok key
  | .taskType aliasConfig => match coerceTaskType text (normalizePayload text task aliasConfig) with
    | some found => .ok found
    | none => .error (valueError "task message missing task_type")
  | .workflow => .error (.error "RuntimeError"
      "SharedStatusWorkflowTopology requires publish_to_stage(...) or publish_to_entry(...)")

/-- Why an operation raises: the check of its task, which is the `i`-th of the list, its connection
or a cancellation. -/
inductive Failure where
  | content (i : Nat)
  | broker
  | cancelled
  deriving DecidableEq, Repr

namespace TaskPublisher

variable (p : TaskPublisher) (routing : TaskRouting)

/-- `prepared_tasks`. -/
def prepareDicts (fresh : Nat → Fresh) (tasks : List (Fields Value)) :
    Except Exc (List Value) := do
  let envelopes ← p.prepareTasks fresh tasks
  envelopes.mapM p.dump

/-- `_publish_prepared_task_item` up to the exchange. -/
def checkedMessage (taskDict : Value) : Except Exc (String × Outgoing) := do
  routing.refuseWorkflow
  p.validateTaskPriority (priorityOf taskDict)
  let routingKey ← routing.taskRoutingKey p.codec.text taskDict
  let message ← p.publishPreparedTask taskDict
  return (routingKey, message)

/-- The message of a batch envelope. -/
def checkedBatch (fresh : Nat → Fresh) (tasks : List (Fields Value)) (batchId : Option String)
    (batchMeta : Fields Value) : Except Exc (String × Outgoing) := do
  let message ← p.publishBatch fresh tasks batchId batchMeta
  let dicts ← p.prepareDicts fresh tasks
  let routingKey ← routing.taskRoutingKey p.codec.text (dicts.headD (.dict []))
  return (routingKey, message)

end TaskPublisher

/-- A call of `map_bounded` and the tasks whose messages have reached the exchange. -/
structure Publishing where
  pool : Pool Unit Failure
  published : List Nat

inductive PublishStep where
  | pool (l : Label Unit Failure)
  | publish (k : Nat)

/-- The check of the `i`-th task fails. -/
def Unfit (messages : List (Except Exc (String × Outgoing))) (i : Nat) : Bool :=
  match messages[i]? with
  | some (.error _) => true
  | _ => false

/-- The check of the `i`-th task succeeds. -/
def Fit (messages : List (Except Exc (String × Outgoing))) (i : Nat) : Bool :=
  match messages[i]? with
  | some (.ok _) => true
  | _ => false

theorem unfit_iff {messages : List (Except Exc (String × Outgoing))} {i : Nat} :
    Unfit messages i = true ↔ i < messages.length ∧ Fit messages i = false := by
  unfold Unfit Fit
  obtain inside | beyond := Nat.lt_or_ge i messages.length
  · rw [List.getElem?_eq_getElem inside]
    cases messages[i] <;> simp [inside]
  · rw [List.getElem?_eq_none beyond]
    simp [beyond]

/-- What the operation on the `i`-th task can raise. -/
def permits (messages : List (Except Exc (String × Outgoing))) (i : Nat) : Failure → Bool
  | .content j => j == i && Unfit messages i
  | _ => true

/-- `publish_tasks(mode="individual")` once every task has been prepared. -/
def individually (messages : List (Except Exc (String × Outgoing))) :
    Machine Publishing PublishStep where
  next s l :=
    let step (l : Label Unit Failure) := ((mapBounded messages.length).next s.pool l).map
      fun pool => { s with pool }
    match l with
    | .publish k => match s.pool.workers[k]? with
      | some (.running i _) =>
        if Fit messages i && !s.published.contains i then
          some { s with published := s.published ++ [i] }
        else none
      | _ => none
    | .pool (.returns k v) => match s.pool.workers[k]? with
      | some (.running i _) => if s.published.contains i then step (.returns k v) else none
      | _ => none
    | .pool (.raises k e) => match s.pool.workers[k]? with
      | some (.running i _) => if permits messages i e then step (.raises k e) else none
      | _ => none
    | .pool l => step l

def Publishing.start (size : Nat) (concurrency : Int) : Publishing :=
  ⟨Pool.start size concurrency, []⟩

/-- Everything a step can do. -/
inductive Publishing.Step (messages : List (Except Exc (String × Outgoing))) (s : Publishing) :
    PublishStep → Publishing → Prop where
  | publish (k i : Nat) (b : Bool) (here : s.pool.workers[k]? = some (.running i b))
      (fit : Fit messages i = true) (new : i ∉ s.published) :
      Step messages s (.publish k) { s with published := s.published ++ [i] }
  | returns (k i : Nat) (b : Bool) (v : Unit) (pool : Pool Unit Failure)
      (here : s.pool.workers[k]? = some (.running i b)) (done : i ∈ s.published)
      (moved : (mapBounded messages.length).next s.pool (.returns k v) = some pool) :
      Step messages s (.pool (.returns k v)) { s with pool }
  | raises (k i : Nat) (b : Bool) (e : Failure) (pool : Pool Unit Failure)
      (here : s.pool.workers[k]? = some (.running i b)) (allowed : permits messages i e = true)
      (moved : (mapBounded messages.length).next s.pool (.raises k e) = some pool) :
      Step messages s (.pool (.raises k e)) { s with pool }
  | call (l : Label Unit Failure) (pool : Pool Unit Failure)
      (own : ∀ k, (∀ v, l ≠ .returns k v) ∧ ∀ e, l ≠ .raises k e)
      (moved : (mapBounded messages.length).next s.pool l = some pool) :
      Step messages s (.pool l) { s with pool }

section Individual

variable {messages : List (Except Exc (String × Outgoing))} {s t : Publishing} {l : PublishStep}
  {ls : List PublishStep} {concurrency : Int}

theorem individually_iff :
    (individually messages).next s l = some t ↔ s.Step messages l t := by
  constructor
  · intro h
    cases l with
    | publish k =>
      simp only [individually] at h
      split at h
      · next i b here =>
        split at h
        · next checked =>
          rw [Bool.and_eq_true, Bool.not_eq_true', List.contains_eq_mem, decide_eq_false_iff_not]
            at checked
          cases h
          exact .publish k i b here checked.1 checked.2
        · cases h
      · cases h
    | pool l =>
      cases l with
      | returns k v =>
        simp only [individually] at h
        split at h
        · next i b here =>
          split at h
          · next done =>
            obtain ⟨pool, moved, rfl⟩ := Option.map_eq_some_iff.mp h
            exact .returns k i b v pool here (by simpa using done) moved
          · cases h
        · cases h
      | raises k e =>
        simp only [individually] at h
        split at h
        · next i b here =>
          split at h
          · next allowed =>
            obtain ⟨pool, moved, rfl⟩ := Option.map_eq_some_iff.mp h
            exact .raises k i b e pool here allowed moved
          · cases h
        · cases h
      | _ =>
        obtain ⟨pool, moved, rfl⟩ := Option.map_eq_some_iff.mp h
        exact .call _ pool (fun k => ⟨nofun, nofun⟩) moved
  · rintro (⟨k, i, b, here, fit, new⟩ | ⟨k, i, b, v, pool, here, done, moved⟩ |
      ⟨k, i, b, e, pool, here, allowed, moved⟩ | ⟨l, pool, own, moved⟩)
    · simp [individually, here, fit, new]
    · simp [individually, here, done, moved]
    · simp [individually, here, allowed, moved]
    · cases l with
      | returns k v => exact ((own k).1 v rfl).elim
      | raises k e => exact ((own k).2 e rfl).elim
      | _ => exact Option.map_eq_some_iff.mpr ⟨pool, moved, rfl⟩

/-- What the pool of a run of `publish_tasks` keeps. -/
def Publishing.Kept (messages : List (Except Exc (String × Outgoing))) (m : Nat)
    (s : Publishing) : Prop :=
  s.pool.Kept messages (fun _ _ => ()) m

theorem Publishing.Kept.next {m : Nat} (h : s.Kept messages m)
    (ht : (individually messages).next s l = some t) : t.Kept messages m := by
  have inside {k i : Nat} {b : Bool} (here : s.pool.workers[k]? = some (.running i b)) :
      some () = messages[i]?.map fun _ => () := by
    have := h.index_lt k i b here
    have := h.next_le
    rw [List.getElem?_eq_getElem (by omega)]
    rfl
  cases individually_iff.mp ht with
  | publish => exact h
  | returns k i b v pool here done moved =>
    exact Pool.Kept.next (l := .returns k v) h (fun i b here => inside here) moved
  | raises k i b e pool here allowed moved =>
    exact Pool.Kept.next (l := .raises k e) h trivial moved
  | call l pool own moved =>
    refine Pool.Kept.next h ?_ moved
    cases l with
    | returns k v => exact ((own k).1 v rfl).elim
    | _ => trivial

theorem Publishing.kept_exec {m : Nat} (h : s.Kept messages m)
    (ht : (individually messages).exec s ls = some t) : t.Kept messages m :=
  Machine.invariant (fun _ _ _ kept next => Publishing.Kept.next kept next) h ht

theorem Publishing.kept_start : (Publishing.start messages.length concurrency).Kept messages
    (Publishing.start messages.length concurrency).pool.workers.length :=
  Pool.kept_start concurrency

/-! ## The checks that fail -/

/-- What `map_bounded` raises for a task, the check of this task has raised. -/
theorem unfit_exec (h : ∀ i, s.pool.failed = some (.content i) → Unfit messages i = true)
    (ht : (individually messages).exec s ls = some t) :
    ∀ i, t.pool.failed = some (.content i) → Unfit messages i = true := by
  refine Machine.invariant (I := fun s => ∀ i, s.pool.failed = some (.content i) →
    Unfit messages i = true) (fun s l t h ht j failed => ?_) h ht
  cases individually_iff.mp ht with
  | publish => exact h j failed
  | returns k i b v pool here done moved =>
    rw [failed_next moved, Label.failure, Option.or_none] at failed
    · exact h j failed
    · nofun
  | raises k i b e pool here allowed moved =>
    rw [failed_next moved] at failed
    obtain old | ⟨-, new⟩ := Option.or_eq_some_iff.mp failed
    · exact h j old
    · obtain rfl := Option.some.inj new
      rw [permits, Bool.and_eq_true, beq_iff_eq] at allowed
      exact allowed.1 ▸ allowed.2
  | call l pool own moved =>
    rw [failed_next moved] at failed
    obtain old | ⟨-, new⟩ := Option.or_eq_some_iff.mp failed
    · exact h j old
    · cases l with
      | raises k e => exact ((own k).2 e rfl).elim
      | _ => cases new

/-- Only an operation that returns lets a worker take a second item. -/
theorem budget_next {size : Nat} {c d : Pool Unit Failure} {ml : Label Unit Failure}
    (first : ∀ k v, ml ≠ .returns k v) (moved : (mapBounded size).next c ml = some d) :
    d.nextIndex + d.workers.countP Worker.isFresh ≤
      c.nextIndex + c.workers.countP Worker.isFresh := by
  have leaves {k : Nat} {w : Worker} (here : c.workers[k]? = some w) :
      (c.workers.set k .ended).countP Worker.isFresh ≤ c.workers.countP Worker.isFresh := by
    have : (c.workers.set k .ended).countP Worker.isFresh + w.isFresh.toNat =
        c.workers.countP Worker.isFresh + 0 := countP_set here
    omega
  cases step_iff.mp moved with
  | start k here waits =>
    unfold Pool.loop
    split
    · have : (c.workers.set k (.running c.nextIndex false)).countP Worker.isFresh + 1 =
          c.workers.countP Worker.isFresh + 0 := countP_set here
      dsimp only
      omega
    · exact Nat.add_le_add_left (leaves here) _
  | returns k i b v here => exact (first k v rfl).elim
  | raises k i b e here => exact Nat.add_le_add_left (leaves here) _
  | drop k e here told => exact Nat.add_le_add_left (leaves here) _
  | observe e waits failed =>
    refine Nat.add_le_add_left (Nat.le_of_eq ?_) _
    exact countP_cancel fun w => by cases w <;> rfl
  | returned idle waits clear => exact Nat.le_refl _
  | raised e idle told => exact Nat.le_refl _

/-- No task has been published, and the workers that have not begun are no more than the tasks that
have not been given to one of the first. -/
structure Publishing.Barren (m : Nat) (s : Publishing) : Prop where
  published : s.published = []
  given : s.pool.nextIndex + s.pool.workers.countP Worker.isFresh ≤ m

/-- If none of the first `m` tasks passes its check, each of the workers gives up at its first. -/
theorem Publishing.Barren.next {m n : Nat} (h : s.Barren m) (kept : s.Kept messages n)
    (unfit : ∀ i < m, Fit messages i = false) (ht : (individually messages).next s l = some t) :
    t.Barren m := by
  cases individually_iff.mp ht with
  | publish k i b here fit new =>
    have := kept.index_lt k i b here
    have := h.given
    rw [unfit i (by omega)] at fit
    cases fit
  | returns k i b v pool here done moved =>
    rw [h.published] at done
    cases done
  | raises k i b e pool here allowed moved =>
    exact ⟨h.published, (budget_next (fun _ _ h => by cases h) moved).trans h.given⟩
  | call l pool own moved =>
    exact ⟨h.published, (budget_next (fun k v => (own k).1 v) moved).trans h.given⟩

theorem Publishing.barren_exec {m n : Nat} (h : s.Barren m) (kept : s.Kept messages n)
    (unfit : ∀ i < m, Fit messages i = false) (ht : (individually messages).exec s ls = some t) :
    t.published = [] :=
  have both : t.Barren m ∧ t.Kept messages n :=
    Machine.invariant (I := fun s => s.Barren m ∧ s.Kept messages n) (fun _ _ _ both next =>
      ⟨both.1.next both.2 unfit next, both.2.next next⟩) ⟨h, kept⟩ ht
  both.1.published

/-! ## A run that has published and then raises -/

/-- Once the failure has been observed, the call can come to its end. -/
theorem exists_drain {f : Failure} (told : s.pool.place = .cancelling f) :
    ∃ ls t, (individually messages).exec s ls = some t ∧ t.pool.place = .raised f ∧
      t.published = s.published := by
  generalize hn : s.pool.work messages.length = n
  induction n using Nat.strong_induction_on generalizing s with
  | _ n ih =>
    subst hn
    by_cases idle : ∀ w ∈ s.pool.workers, w = .ended
    · have ends : (mapBounded messages.length).next s.pool .conclude =
          some { s.pool with place := .raised f } := step_iff.mpr (.raised f idle told)
      exact Machine.exists_exec_cons
        (individually_iff.mpr (.call .conclude _ (fun k => ⟨nofun, nofun⟩) ends))
        ⟨[], _, rfl, rfl, rfl⟩
    · obtain ⟨k, w, here, live⟩ := Pool.exists_live idle
      cases w with
      | fresh =>
        have leaves : (mapBounded messages.length).next s.pool (.drop k) =
            some { s.pool with workers := s.pool.workers.set k .ended } :=
          step_iff.mpr (.drop k f here told)
        exact Machine.exists_exec_cons
          (individually_iff.mpr (.call (.drop k) _ (fun k => ⟨nofun, nofun⟩) leaves))
          (ih _ (work_next leaves) told rfl)
      | running i b =>
        have leaves : (mapBounded messages.length).next s.pool (.raises k .cancelled) =
            some { s.pool with
              workers := s.pool.workers.set k .ended
              failed := s.pool.failed.or (some .cancelled) } :=
          step_iff.mpr (.raises k i b .cancelled here)
        exact Machine.exists_exec_cons
          (individually_iff.mpr (.raises k i b .cancelled _ here rfl leaves))
          (ih _ (work_next leaves) told rfl)
      | ended => exact (live rfl).elim

variable (messages) in
/-- A call whose worker has failed can come to its end. -/
theorem exists_raised {f : Failure} (waits : s.pool.place = .gathering)
    (failed : s.pool.failed = some f) :
    ∃ ls t, (individually messages).exec s ls = some t ∧ t.pool.place = .raised f ∧
      t.published = s.published := by
  have observes : (mapBounded messages.length).next s.pool .observe = some
      { s.pool with place := .cancelling f, workers := s.pool.workers.map Worker.cancel } :=
    step_iff.mpr (.observe f waits failed)
  exact Machine.exists_exec_cons
    (individually_iff.mpr (.call .observe _ (fun k => ⟨nofun, nofun⟩) observes))
    (exists_drain rfl)

/-- The check of a task fails while another has been published. -/
theorem exists_check {k bad : Nat} {b : Bool}
    (here : s.pool.workers[k]? = some (.running bad b)) (waits : s.pool.place = .gathering)
    (clear : s.pool.failed = none) (unfit : Unfit messages bad = true)
    (some_ : s.published ≠ []) :
    ∃ ls t, (individually messages).exec s ls = some t ∧ t.pool.place = .raised (.content bad) ∧
      t.published ≠ [] := by
  have raises : (mapBounded messages.length).next s.pool (.raises k (.content bad)) =
      some { s.pool with
        workers := s.pool.workers.set k .ended
        failed := s.pool.failed.or (some (.content bad)) } :=
    step_iff.mpr (.raises k bad b (.content bad) here)
  have allowed : permits messages bad (.content bad) = true := by simp [permits, unfit]
  refine Machine.exists_exec_cons
    (individually_iff.mpr (.raises k bad b _ _ here allowed raises)) ?_
  have failed : s.pool.failed.or (some (Failure.content bad)) = some (.content bad) := by
    rw [clear, Option.none_or]
  obtain ⟨ls, t, ht, ended, same⟩ := exists_raised messages (f := .content bad)
    (s := ⟨{ s.pool with
      workers := s.pool.workers.set k .ended
      failed := s.pool.failed.or (some (.content bad)) }, s.published⟩) waits failed
  exact ⟨ls, t, ht, ended, same ▸ some_⟩

/-- A worker that has a good task publishes it and takes the next one. -/
theorem publishes {k i : Nat} {b : Bool} (here : s.pool.workers[k]? = some (.running i b))
    (fit : Fit messages i = true) (old : ∀ j ∈ s.published, j < i)
    (more : s.pool.nextIndex < messages.length) :
    ∃ t, (individually messages).exec s [.publish k, .pool (.returns k ())] = some t ∧
      t.pool.nextIndex = s.pool.nextIndex + 1 ∧
      t.pool.workers[k]? = some (.running s.pool.nextIndex false) ∧
      t.pool.place = s.pool.place ∧ t.pool.failed = s.pool.failed ∧
      t.published = s.published ++ [i] := by
  have publish : (individually messages).next s (.publish k) =
      some { s with published := s.published ++ [i] } :=
    individually_iff.mpr (.publish k i b here fit fun h => Nat.lt_irrefl i (old i h))
  have returns : (mapBounded messages.length).next s.pool (.returns k ()) =
      some ({ s.pool with results := s.pool.results.set i (some ()) }.loop messages.length k) :=
    step_iff.mpr (.returns k i b () here)
  have goes : (individually messages).next { s with published := s.published ++ [i] }
      (.pool (.returns k ())) = _ :=
    individually_iff.mpr (.returns k i b () _ here (List.mem_append_right _ (by simp)) returns)
  refine ⟨_, by rw [Machine.exec_cons, publish, Option.bind_some, Machine.exec_cons, goes]; rfl, ?_⟩
  obtain ⟨inside, -⟩ := List.getElem?_eq_some_iff.mp here
  simp [Pool.loop, more, List.getElem?_set_self inside]

/-- A worker that has a good task publishes it and goes on to the bad one. -/
theorem exists_blunder {k i bad : Nat} {b : Bool}
    (here : s.pool.workers[k]? = some (.running i b)) (waits : s.pool.place = .gathering)
    (clear : s.pool.failed = none) (old : ∀ j ∈ s.published, j < i)
    (started : i < s.pool.nextIndex) (ahead : s.pool.nextIndex ≤ bad)
    (fit : Fit messages i = true)
    (between : ∀ j, s.pool.nextIndex ≤ j → j < bad → Fit messages j = true)
    (unfit : Unfit messages bad = true) :
    ∃ ls t, (individually messages).exec s ls = some t ∧ t.pool.place = .raised (.content bad) ∧
      t.published ≠ [] := by
  have inside : bad < messages.length := (unfit_iff.mp unfit).1
  generalize hn : bad - s.pool.nextIndex = n
  induction n generalizing s i b with
  | zero =>
    obtain ⟨u, hu, next, here', waits', clear', published⟩ :=
      publishes here fit old (ahead.trans_lt inside)
    obtain rfl : s.pool.nextIndex = bad := Nat.le_antisymm ahead (Nat.sub_eq_zero_iff_le.mp hn)
    refine Machine.exists_exec_trans ⟨_, u, hu, rfl⟩ fun t same => ?_
    subst same
    exact exists_check here' (waits'.trans waits) (clear'.trans clear) unfit (by simp [published])
  | succ n ih =>
    obtain ⟨u, hu, next, here', waits', clear', published⟩ :=
      publishes here fit old (ahead.trans_lt inside)
    refine Machine.exists_exec_trans ⟨_, u, hu, rfl⟩ fun t same => ?_
    subst same
    refine ih here' (waits'.trans waits) (clear'.trans clear) (fun j hj => ?_) (by omega)
      (by omega) (between _ (Nat.le_refl _) (by omega)) (fun j hj => between j (by omega))
      (by omega)
    rw [published, List.mem_append, List.mem_singleton] at hj
    obtain hj | rfl := hj
    · exact (old j hj).trans started
    · exact started

/-- The first `k` of `m` workers run, each on the task at its own position. -/
structure Publishing.Started (m k : Nat) (s : Publishing) : Prop where
  running : ∀ j < k, s.pool.workers[j]? = some (.running j false)
  fresh : ∀ j, k ≤ j → j < m → s.pool.workers[j]? = some .fresh
  waits : s.pool.place = .gathering
  clear : s.pool.failed = none
  nextIndex : s.pool.nextIndex = k
  published : s.published = []

theorem exists_started {m k : Nat} (h : s.Started m k) (le : k ≤ m) (few : m ≤ messages.length) :
    ∃ ls t, (individually messages).exec s ls = some t ∧ t.Started m m := by
  induction le using Nat.decreasingInduction generalizing s with
  | self => exact ⟨[], s, rfl, h⟩
  | of_succ k lt ih =>
    have here := h.fresh k (Nat.le_refl k) lt
    obtain ⟨inside, -⟩ := List.getElem?_eq_some_iff.mp here
    have more : k < messages.length := lt.trans_le few
    have starts : (mapBounded messages.length).next s.pool (.start k) =
        some (s.pool.loop messages.length k) := step_iff.mpr (.start k here h.waits)
    refine Machine.exists_exec_cons
      (individually_iff.mpr (.call (.start k) _ (fun k => ⟨nofun, nofun⟩) starts)) (ih ?_)
    simp only [Pool.loop, h.nextIndex, if_pos more]
    refine ⟨fun j hj => ?_, fun j hj below => ?_, h.waits, h.clear, rfl, h.published⟩
    · obtain hj | rfl := Nat.lt_succ_iff_lt_or_eq.mp hj
      · exact (List.getElem?_set_ne (Nat.ne_of_gt hj)).trans (h.running j hj)
      · exact List.getElem?_set_self inside
    · exact (List.getElem?_set_ne (Nat.ne_of_lt hj)).trans (h.fresh j (Nat.le_of_succ_le hj) below)

theorem Publishing.started_start (positive : 0 < min concurrency.toNat messages.length) :
    (Publishing.start messages.length concurrency).Started
      (min concurrency.toNat messages.length) 0 := by
  have hc : ¬concurrency < 1 := by omega
  have hn : messages.length ≠ 0 := by omega
  rw [Publishing.start, Pool.start, if_neg hc, if_neg hn]
  exact ⟨fun j hj => absurd hj (Nat.not_lt_zero j),
    fun j _ hj => List.getElem?_replicate_of_lt hj, rfl, rfl, rfl, rfl⟩

variable (messages concurrency) in
/-- The checks fail too late if the first that fails can come after a task that is published. -/
theorem exists_published {i : Nat} (first : i < min concurrency.toNat messages.length)
    (fit : Fit messages i = true) (bad : ∃ j, Unfit messages j = true) :
    ∃ ls t j, (individually messages).exec (Publishing.start messages.length concurrency) ls =
      some t ∧ t.pool.place = .raised (.content j) ∧ t.published ≠ [] := by
  let m := min concurrency.toNat messages.length
  have few : m ≤ messages.length := Nat.min_le_right _ _
  obtain ⟨ls, s, hs, started⟩ := exists_started
    (Publishing.started_start (Nat.zero_lt_of_lt first)) (Nat.zero_le _) few
  have unfit := Nat.find_spec bad
  have earlier (j : Nat) (lt : j < Nat.find bad) : Fit messages j = true := by
    by_contra fails
    exact Nat.find_min bad lt (unfit_iff.mpr
      ⟨lt.trans (unfit_iff.mp unfit).1, Bool.eq_false_iff.mpr fails⟩)
  suffices ∃ ls t, (individually messages).exec s ls = some t ∧
      t.pool.place = .raised (.content (Nat.find bad)) ∧ t.published ≠ [] by
    obtain ⟨ks, t, ht, ended, some_⟩ := this
    exact ⟨ls ++ ks, t, Nat.find bad, by rw [Machine.exec_append, hs, Option.bind_some, ht],
      ended, some_⟩
  by_cases late : m ≤ Nat.find bad
  · exact exists_blunder (started.running 0 (Nat.zero_lt_of_lt first)) started.waits started.clear
      (fun j hj => by rw [started.published] at hj; cases hj)
      (started.nextIndex ▸ Nat.zero_lt_of_lt first) (started.nextIndex ▸ late)
      (earlier 0 ((Nat.zero_lt_of_lt first).trans_le late)) (fun j _ lt => earlier j lt) unfit
  · have publish : (individually messages).next s (.publish i) =
        some { s with published := s.published ++ [i] } :=
      individually_iff.mpr (.publish i i false (started.running i first) fit
        (by simp [started.published]))
    exact Machine.exists_exec_cons publish (exists_check
      (started.running _ (Nat.not_le.mp late)) started.waits started.clear unfit (by simp))

theorem content_exec {i : Nat} (ht : (individually messages).exec
      (Publishing.start messages.length concurrency) ls = some t)
    (ended : t.pool.place = .raised (.content i)) : Unfit messages i = true := by
  have kept := Publishing.kept_exec Publishing.kept_start ht
  have clear : (Publishing.start messages.length concurrency).pool.failed = none := by
    unfold Publishing.start Pool.start
    split
    · rfl
    · split <;> rfl
  exact unfit_exec (fun j failed => by rw [clear] at failed; cases failed) ht i
    (kept.told _ (Or.inr ended))

theorem Publishing.barren_start :
    (Publishing.start messages.length concurrency).Barren
      (min concurrency.toNat messages.length) := by
  refine ⟨rfl, ?_⟩
  have few := Pool.start_workers_le (β := Unit) (ε := Failure) messages.length concurrency
  have none_ : (Publishing.start messages.length concurrency).pool.nextIndex = 0 := by
    unfold Publishing.start Pool.start
    split
    · rfl
    · split <;> rfl
  rw [none_, Nat.zero_add]
  exact List.countP_le_length.trans few

end Individual

/-! ## Both modes -/

/-- `mode`, with what a batch envelope is made of. -/
inductive Mode where
  | individual
  | batchEnvelope (batchId : Option String) (batchMeta : Fields Value)

inductive Ending where
  | returned
  | content
  | other

def endingOf : Place Unit Failure → Option Ending
  | .returned _ => some .returned
  | .raised (.content _) => some .content
  | .raised _ | .refused => some .other
  | _ => none

/-- How a call of `publish_tasks` can end, and the tasks it has then published. -/
inductive PublishTasks (p : TaskPublisher) (routing : TaskRouting) (fresh : Nat → Fresh)
    (tasks : List (Fields Value)) (concurrency : Int) : Mode → Ending → List Nat → Prop where
  | unprepared (mode : Mode) (e : Exc) (refused : p.prepareDicts fresh tasks = .error e) :
      PublishTasks p routing fresh tasks concurrency mode .content []
  | individual (dicts : List Value) (ls : List PublishStep) (t : Publishing) (ending : Ending)
      (prepared : p.prepareDicts fresh tasks = .ok dicts)
      (run : (individually (dicts.map (p.checkedMessage routing))).exec
        (Publishing.start (dicts.map (p.checkedMessage routing)).length concurrency) ls = some t)
      (ends : endingOf t.pool.place = some ending) :
      PublishTasks p routing fresh tasks concurrency .individual ending t.published
  | unfitBatch (batchId : Option String) (batchMeta : Fields Value) (e : Exc)
      (refused : p.checkedBatch routing fresh tasks batchId batchMeta = .error e) :
      PublishTasks p routing fresh tasks concurrency (.batchEnvelope batchId batchMeta) .content []
  | unsent (batchId : Option String) (batchMeta : Fields Value) :
      PublishTasks p routing fresh tasks concurrency (.batchEnvelope batchId batchMeta) .other []
  | sent (batchId : Option String) (batchMeta : Fields Value) (message : String × Outgoing)
      (ending : Ending)
      (checked : p.checkedBatch routing fresh tasks batchId batchMeta = .ok message)
      (sound : ending ≠ .content) :
      PublishTasks p routing fresh tasks concurrency (.batchEnvelope batchId batchMeta) ending
        (List.range tasks.length)

theorem fit_map_iff {f : Value → Except Exc (String × Outgoing)} {dicts : List Value} {i : Nat} :
    Fit (dicts.map f) i = true ↔ ∃ v, dicts[i]? = some v ∧ ∃ m, f v = .ok m := by
  unfold Fit
  rw [List.getElem?_map]
  cases dicts[i]? with
  | none => simp
  | some v =>
    cases hv : f v with
    | error e => simp [hv]
    | ok m => simpa [hv] using ⟨m.1, m.2, rfl⟩

theorem unfit_map_iff {f : Value → Except Exc (String × Outgoing)} {dicts : List Value} {i : Nat} :
    Unfit (dicts.map f) i = true ↔ ∃ v, dicts[i]? = some v ∧ ∃ e, f v = .error e := by
  unfold Unfit
  rw [List.getElem?_map]
  cases dicts[i]? with
  | none => simp
  | some v => cases hv : f v <;> simp [hv]

theorem exists_error {ε α : Type} {x : Except ε α} (h : ¬∃ m, x = .ok m) : ∃ e, x = .error e := by
  cases x with
  | error e => exact ⟨e, rfl⟩
  | ok m => exact (h ⟨m, rfl⟩).elim

theorem exists_ok {ε α : Type} {x : Except ε α} (h : ¬∃ e, x = .error e) : ∃ m, x = .ok m := by
  cases x with
  | error e => exact (h ⟨e, rfl⟩).elim
  | ok m => exact ⟨m, rfl⟩

theorem endingOf_content {place : Place Unit Failure} (h : endingOf place = some .content) :
    ∃ i, place = .raised (.content i) := by
  unfold endingOf at h
  split at h
  · cases h
  · exact ⟨_, rfl⟩
  · cases h
  · cases h
  · cases h

/-- The content of a task fails the call before anything has been published: always in a batch
envelope, and in the individual mode if all tasks pass their checks or none of the first
`max_concurrency`. -/
theorem publish_tasks_content_iff (p : TaskPublisher) (routing : TaskRouting)
    (fresh : Nat → Fresh) (tasks : List (Fields Value)) (concurrency : Int) (mode : Mode) :
    (∀ published, PublishTasks p routing fresh tasks concurrency mode .content published →
      published = []) ↔
    (mode = .individual → ∀ dicts, p.prepareDicts fresh tasks = .ok dicts →
      (∀ v ∈ dicts, ∃ m, p.checkedMessage routing v = .ok m) ∨
        ∀ v ∈ dicts.take concurrency.toNat, ∃ e, p.checkedMessage routing v = .error e) := by
  constructor
  · rintro safe rfl dicts prepared
    by_contra mixed
    obtain ⟨some_, first⟩ := not_or.mp mixed
    obtain ⟨v, hv, unfit⟩ : ∃ v ∈ dicts, ¬∃ m, p.checkedMessage routing v = .ok m := by
      simpa only [not_forall, exists_prop] using some_
    obtain ⟨w, hw, fit⟩ : ∃ v ∈ dicts.take concurrency.toNat,
        ¬∃ e, p.checkedMessage routing v = .error e := by
      simpa only [not_forall, exists_prop] using first
    obtain ⟨j, here⟩ := List.getElem?_of_mem hv
    obtain ⟨i, there⟩ := List.getElem?_of_mem hw
    obtain ⟨below, there⟩ : i < concurrency.toNat ∧ dicts[i]? = some w := by
      simpa only [List.getElem?_take, ite_eq_iff, reduceCtorEq, and_false, or_false] using there
    obtain ⟨inside, -⟩ := List.getElem?_eq_some_iff.mp there
    obtain ⟨ls, t, k, run, ended, some_⟩ := exists_published
      (dicts.map (p.checkedMessage routing)) concurrency
      (Nat.lt_min.mpr ⟨below, by rwa [List.length_map]⟩)
      (fit_map_iff.mpr ⟨w, there, exists_ok fit⟩)
      ⟨j, unfit_map_iff.mpr ⟨v, here, exists_error unfit⟩⟩
    exact some_ (safe _ (.individual dicts ls t .content prepared run (by rw [ended]; rfl)))
  · intro sound published ends
    cases ends with
    | unprepared e refused => rfl
    | individual dicts ls t ending prepared run ends =>
      obtain ⟨j, ended⟩ := endingOf_content ends
      obtain ⟨v, here, e, he⟩ := unfit_map_iff.mp (content_exec run ended)
      obtain all | first := sound rfl dicts prepared
      · obtain ⟨m, hm⟩ := all v (List.mem_of_getElem? here)
        cases he.symm.trans hm
      · refine Publishing.barren_exec Publishing.barren_start Publishing.kept_start
          (fun i hi => ?_) run
        refine Bool.eq_false_iff.mpr fun fit => ?_
        obtain ⟨w, there, m, hm⟩ := fit_map_iff.mp fit
        have there : (dicts.take concurrency.toNat)[i]? = some w := by
          rw [List.getElem?_take_of_lt (hi.trans_le (Nat.min_le_left _ _)), there]
        obtain ⟨e, he⟩ := first w (List.mem_of_getElem? there)
        cases he.symm.trans hm
    | unfitBatch => rfl
    | sent batchId batchMeta message ending checked sound => exact (sound rfl).elim

/-- Two tasks, the second above the limit, published one after the other. -/
theorem priority_after_published :
    ∃ published, published ≠ [] ∧ PublishTasks { twoTaskPublisher with taskMaxPriority := some 3 }
      (.tasksRoutingKey "tasks") drawn [plainTask, urgentTask] 1 .individual .content
      published := by
  refine ⟨_, ?_, .individual [.dict plainTask, .dict urgentTask]
    [.pool (.start 0), .publish 0, .pool (.returns 0 ()), .pool (.raises 0 (.content 1)),
      .pool .observe, .pool .conclude] _ .content rfl rfl rfl⟩
  exact List.cons_ne_nil 0 []

end Relayna.Rabbitmq
