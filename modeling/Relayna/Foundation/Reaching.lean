import Mathlib.Data.List.Basic

/-!
# What a pass over a list reaches

A pass takes the elements of a list in order and may end at one of them. Whether it does can
depend on the elements before. `Reaching` says that something holds of every element that is
taken, the one at which the pass ends included; `taken` are these elements.
-/
namespace Pass

variable {α : Type*} {stops ok : List α → α → Prop} {before l : List α} {a : α}

/-- `before` are the elements taken so far. -/
def Reaching (stops ok : List α → α → Prop) : List α → List α → Prop
  | _, [] => True
  | before, a :: l => ok before a ∧ (¬stops before a → Reaching stops ok (before ++ [a]) l)

theorem reaching_cons : Reaching stops ok before (a :: l) ↔
    ok before a ∧ (¬stops before a → Reaching stops ok (before ++ [a]) l) :=
  Iff.rfl

/-- The elements up to the first at which the pass ends. -/
def taken (stops : List α → α → Bool) : List α → List α → List α
  | _, [] => []
  | before, a :: l => a :: if stops before a then [] else taken stops (before ++ [a]) l

section Taken

variable {halts : List α → α → Bool}

theorem taken_of_stop (h : halts before a = true) : taken halts before (a :: l) = [a] := by
  rw [taken, if_pos h]

theorem taken_of_go (h : halts before a = false) :
    taken halts before (a :: l) = a :: taken halts (before ++ [a]) l := by
  rw [taken, if_neg (by simp [h])]

theorem taken_isPrefix : taken halts before l <+: l := by
  induction l generalizing before with
  | nil => exact List.prefix_rfl
  | cons a l ih =>
    cases h : halts before a with
    | true =>
      rw [taken_of_stop h]
      exact ⟨l, rfl⟩
    | false =>
      rw [taken_of_go h]
      exact (List.prefix_cons_inj a).mpr ih

end Taken

end Pass
