import Mathlib.Data.List.Basic
import Mathlib.Data.List.Nodup

/-!
# A lock that is handed over in the order of the requests

The holder and those who wait, first come first served. A free lock with nobody waiting is
taken at once; otherwise a request waits, also when the lock is free and the first of the
waiters has not resumed yet. Whoever is present may leave at any time, the holder by releasing
the lock and a waiter by giving up.

`present` lists the holder and the waiters in the order of their requests. Each operation is a
list operation on it, so an order on the requests is kept by all of them.
-/
namespace FairLock

structure Lock (α : Type*) where
  holder : Option α
  waiters : List α
  deriving DecidableEq, Repr

namespace Lock

variable {α : Type*} {l l' : Lock α} {a b : α}

def free : Lock α := ⟨none, []⟩

def idle (l : Lock α) : Bool := l.holder.isNone && l.waiters.isEmpty

def request (l : Lock α) (a : α) : Lock α :=
  if l.idle then ⟨some a, []⟩ else { l with waiters := l.waiters ++ [a] }

/-- The first of the waiters takes the lock if it is free. -/
def grant (l : Lock α) (a : α) [DecidableEq α] : Option (Lock α) :=
  match l.holder, l.waiters with
  | none, b :: rest => if a = b then some ⟨some a, rest⟩ else none
  | _, _ => none

def leave (l : Lock α) (a : α) [DecidableEq α] : Lock α :=
  if l.holder = some a then { l with holder := none } else { l with waiters := l.waiters.erase a }

def present (l : Lock α) : List α := l.holder.toList ++ l.waiters

@[simp] theorem present_free : (free : Lock α).present = [] := rfl

theorem mem_present : a ∈ l.present ↔ l.holder = some a ∨ a ∈ l.waiters := by
  simp [present]

theorem idle_iff : l.idle = true ↔ l.present = [] := by
  obtain ⟨holder, waiters⟩ := l
  cases holder <;> simp [idle, present]

@[simp] theorem present_request : (l.request a).present = l.present ++ [a] := by
  unfold request
  split
  · rename_i h
    rw [idle_iff.mp h]
    rfl
  · simp [present]

theorem holder_request :
    (l.request a).holder = if l.idle then some a else l.holder := by
  unfold request
  split <;> rfl

variable [DecidableEq α]

theorem grant_eq_some (h : l.grant a = some l') :
    l.holder = none ∧ l'.holder = some a ∧ l.waiters = a :: l'.waiters := by
  unfold grant at h
  split at h
  · rename_i b rest free waiting
    split at h
    · rename_i same
      obtain rfl := Option.some.inj h
      exact ⟨free, rfl, same ▸ waiting⟩
    · cases h
  · cases h

theorem present_grant (h : l.grant a = some l') : l'.present = l.present := by
  obtain ⟨free, held, waiting⟩ := grant_eq_some h
  simp [present, free, held, waiting]

/-- A free lock with waiters can be granted to the first of them. -/
theorem exists_grant (free : l.holder = none) (waiting : b ∈ l.waiters) :
    ∃ a ∈ l.waiters, (l.grant a).isSome := by
  cases hw : l.waiters with
  | nil =>
    rw [hw] at waiting
    cases waiting
  | cons a rest => exact ⟨a, List.mem_cons_self, by simp [grant, free, hw]⟩

theorem present_leave (h : a ∈ l.present) : (l.leave a).present = l.present.erase a := by
  unfold leave
  split
  · rename_i held
    simp [present, held]
  · rename_i other
    obtain held | waiting := mem_present.mp h
    · exact absurd held other
    · unfold present
      rw [List.erase_append_right]
      simpa [eq_comm] using other

theorem mem_waiters_leave (nodup : l.present.Nodup) :
    b ∈ (l.leave a).waiters ↔ b ∈ l.waiters ∧ b ≠ a := by
  unfold leave
  split
  · rename_i held
    have absent : a ∉ l.waiters := by
      rw [present, held] at nodup
      exact (List.nodup_cons.mp nodup).1
    refine ⟨fun hb => ⟨hb, ?_⟩, And.left⟩
    rintro rfl
    exact absent hb
  · rw [(List.nodup_append.mp nodup).2.1.mem_erase_iff, and_comm]

theorem holder_leave : (l.leave a).holder = some b ↔ l.holder = some b ∧ b ≠ a := by
  unfold leave
  split
  · rename_i held
    simp only [reduceCtorEq, held, Option.some.injEq, false_iff, not_and, not_not]
    exact Eq.symm
  · rename_i other
    refine ⟨fun hb => ⟨hb, ?_⟩, And.left⟩
    rintro rfl
    exact other hb

end Lock

end FairLock
