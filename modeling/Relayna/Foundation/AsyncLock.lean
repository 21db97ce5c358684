import Mathlib.Data.List.Basic

/-!
# A lock whose waiters may be cancelled

The lock of an event loop with cooperative tasks. A waiter has a future; a release wakes the first
waiter, who takes the lock when its task resumes. A waiter may be cancelled before its future is
done, or when it is done and the task has not resumed. A task that resumes cancelled takes itself
off the list and, if the lock is free, wakes the first of the others.

At most the first waiter is woken, and only while the lock is free: `Fair`. So whoever resumes with
the lock resumes to a free one.
-/
namespace AsyncLock

/-- The future of a waiter, and whether its task is to be cancelled. -/
inductive Wait
  | pending
  | woken
  | cancelled
  | wokenCancelled
  deriving DecidableEq, Repr

/-- The future has its result. -/
def Wait.hasResult : Wait → Bool
  | .woken | .wokenCancelled => true
  | _ => false

def Wait.cancel : Wait → Wait
  | .pending => .cancelled
  | .woken => .wokenCancelled
  | w => w

structure Lock (α : Type*) where
  locked : Bool := false
  waiters : List (α × Wait) := []
  deriving DecidableEq, Repr

variable {α : Type*}

def wakeFirst : List (α × Wait) → List (α × Wait)
  | (a, .pending) :: rest => (a, .woken) :: rest
  | waiters => waiters

@[simp] theorem length_wakeFirst (waiters : List (α × Wait)) :
    (wakeFirst waiters).length = waiters.length := by
  unfold wakeFirst
  split <;> rfl

namespace Lock

/-- A request takes the lock at once. -/
def available (l : Lock α) : Bool := !l.locked && l.waiters.all (·.2 = .cancelled)

def take (l : Lock α) : Lock α := { l with locked := true }

def enqueue (l : Lock α) (a : α) : Lock α := { l with waiters := l.waiters ++ [(a, .pending)] }

def release (l : Lock α) : Lock α := ⟨false, wakeFirst l.waiters⟩

variable [DecidableEq α]

def cancel (l : Lock α) (a : α) : Lock α :=
  { l with waiters := l.waiters.map fun w => if w.1 = a then (w.1, w.2.cancel) else w }

/-- The task of a waiter resumes, with the lock or cancelled. -/
def resume (l : Lock α) (a : α) : Option (Lock α × Bool) :=
  let rest := l.waiters.eraseP (·.1 = a)
  match l.waiters.find? (·.1 = a) with
  | some (_, .woken) => some (⟨true, rest⟩, true)
  | some (_, .cancelled) | some (_, .wokenCancelled) =>
    some (⟨l.locked, if l.locked then rest else wakeFirst rest⟩, false)
  | _ => none

/-- Only the first waiter is woken, and only while the lock is free. -/
structure Fair (l : Lock α) : Prop where
  tail : ∀ w ∈ l.waiters.tail, w.2.hasResult = false
  head : ∀ w ∈ l.waiters.head?, w.2.hasResult = true → l.locked = false

variable {l l' : Lock α} {a : α}

omit [DecidableEq α] in
theorem Fair.empty : Fair ({} : Lock α) := ⟨List.forall_mem_nil _, by simp⟩

omit [DecidableEq α] in
/-- Nobody is woken while the lock is held. -/
theorem Fair.of_locked (h : Fair l) (held : l.locked = true) :
    ∀ w ∈ l.waiters, w.2.hasResult = false := by
  obtain ⟨locked, waiters⟩ := l
  cases waiters with
  | nil => exact List.forall_mem_nil _
  | cons w rest =>
    rw [List.forall_mem_cons]
    refine ⟨?_, h.tail⟩
    by_contra woken
    rw [Bool.not_eq_false] at woken
    have free := h.head w rfl woken
    rw [held] at free
    cases free

omit [DecidableEq α] in
theorem fair_of_none {waiters : List (α × Wait)} {locked : Bool}
    (none_woken : ∀ w ∈ waiters, w.2.hasResult = false) : Fair ⟨locked, waiters⟩ := by
  refine ⟨fun w hw => none_woken w (List.mem_of_mem_tail hw), fun w hw woken => ?_⟩
  rw [none_woken w (List.mem_of_mem_head? hw)] at woken
  cases woken

omit [DecidableEq α] in
theorem fair_wakeFirst {waiters : List (α × Wait)}
    (tail : ∀ w ∈ waiters.tail, w.2.hasResult = false) : Fair ⟨false, wakeFirst waiters⟩ := by
  refine ⟨?_, fun _ _ _ => rfl⟩
  unfold wakeFirst
  split <;> exact tail

omit [DecidableEq α] in
theorem Fair.take (h : l.available = true) : Fair l.take := by
  rw [available, Bool.and_eq_true, List.all_eq_true] at h
  refine fair_of_none fun w hw => ?_
  rw [of_decide_eq_true (h.2 w hw)]
  rfl

omit [DecidableEq α] in
theorem Fair.enqueue (h : Fair l) (a : α) : Fair (l.enqueue a) := by
  obtain ⟨locked, waiters⟩ := l
  cases waiters with
  | nil => exact fair_of_none (by simp [Wait.hasResult])
  | cons w rest =>
    refine ⟨?_, h.head⟩
    simp only [Lock.enqueue, List.cons_append, List.tail_cons, List.forall_mem_append,
      List.forall_mem_singleton]
    exact ⟨h.tail, rfl⟩

omit [DecidableEq α] in
theorem Fair.release (h : Fair l) : Fair l.release := fair_wakeFirst h.tail

theorem hasResult_cancel (w : Wait) : w.cancel.hasResult = w.hasResult := by
  cases w <;> rfl

theorem Fair.cancel (h : Fair l) (a : α) : Fair (l.cancel a) := by
  have same (w : α × Wait) : (if w.1 = a then (w.1, w.2.cancel) else w).2.hasResult =
      w.2.hasResult := by
    split
    · exact hasResult_cancel w.2
    · rfl
  obtain ⟨locked, waiters⟩ := l
  cases waiters with
  | nil => exact h
  | cons first rest =>
    refine ⟨?_, ?_⟩
    · rw [Lock.cancel, List.map_cons, List.tail_cons, List.forall_mem_map]
      intro w hw
      rw [same]
      exact h.tail w hw
    · rintro _ here woken
      obtain rfl := Option.some.inj here
      exact h.head first rfl (same first ▸ woken)

omit [DecidableEq α] in
/-- Whoever leaves, nobody behind the first one was woken. -/
theorem Fair.tail_eraseP (h : Fair l) (p : α × Wait → Bool) :
    ∀ w ∈ (l.waiters.eraseP p).tail, w.2.hasResult = false := by
  intro w hw
  obtain ⟨locked, waiters⟩ := l
  cases waiters with
  | nil => simp at hw
  | cons first rest =>
    rw [List.eraseP_cons] at hw
    cases leaves : p first with
    | false =>
      rw [leaves] at hw
      exact h.tail w (List.mem_of_mem_eraseP hw)
    | true =>
      rw [leaves] at hw
      exact h.tail w (List.mem_of_mem_tail hw)

/-- A task that resumes with the lock resumes to a free one. -/
theorem Fair.resume (h : Fair l) {taken : Bool} (r : l.resume a = some (l', taken)) :
    Fair l' ∧ l'.locked = (l.locked || taken) ∧ (taken = true → l.locked = false) ∧
      l'.waiters.length + 1 = l.waiters.length := by
  have shorter {w : α × Wait} (found : l.waiters.find? (·.1 = a) = some w) :
      (l.waiters.eraseP (·.1 = a)).length + 1 = l.waiters.length := by
    have hw := List.mem_of_find?_eq_some found
    rw [List.length_eraseP_of_mem hw (List.find?_some found)]
    have := List.length_pos_of_mem hw
    omega
  have cancelled {w : α × Wait} (found : l.waiters.find? (·.1 = a) = some w)
      (done : (⟨l.locked, if l.locked then l.waiters.eraseP (·.1 = a)
        else wakeFirst (l.waiters.eraseP (·.1 = a))⟩ : Lock α) = l') :
      Fair l' ∧ l'.locked = l.locked ∧ l'.waiters.length + 1 = l.waiters.length := by
    subst done
    cases held : l.locked with
    | true =>
      refine ⟨fair_of_none fun w hw => ?_, rfl, shorter found⟩
      exact h.of_locked held w (List.mem_of_mem_eraseP hw)
    | false =>
      refine ⟨fair_wakeFirst (h.tail_eraseP _), rfl, ?_⟩
      simpa [length_wakeFirst] using shorter found
  unfold Lock.resume at r
  dsimp only at r
  split at r
  · rename_i b found
    obtain ⟨rfl, rfl⟩ := Prod.mk.inj (Option.some.inj r)
    have hw := List.mem_of_find?_eq_some found
    obtain ⟨locked, waiters⟩ := l
    cases waiters with
    | nil => simp at hw
    | cons first rest =>
      -- It is the first one, and the others were not woken.
      have isFirst : (b, Wait.woken) = first := by
        rcases List.mem_cons.mp hw with here | later
        · exact here
        · cases h.tail _ later
      subst isFirst
      have here : b = a := by simpa using List.find?_some found
      refine ⟨fair_of_none ?_, (Bool.or_true _).symm, fun _ => h.head _ rfl rfl, shorter found⟩
      simpa [here] using h.tail
  · rename_i found
    obtain ⟨done, rfl⟩ := Prod.mk.inj (Option.some.inj r)
    obtain ⟨fair, same, length⟩ := cancelled found done
    exact ⟨fair, by rw [same, Bool.or_false], by simp, length⟩
  · rename_i found
    obtain ⟨done, rfl⟩ := Prod.mk.inj (Option.some.inj r)
    obtain ⟨fair, same, length⟩ := cancelled found done
    exact ⟨fair, by rw [same, Bool.or_false], by simp, length⟩
  · cases r

end Lock

end AsyncLock
