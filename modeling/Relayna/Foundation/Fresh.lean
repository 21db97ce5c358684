import Mathlib.Data.List.Nodup
import Mathlib.Data.List.Perm.Subperm
import Mathlib.Data.List.Range

/-!
# The first free name

A search along a sequence of names for one that is not used. If the names of the sequence differ,
the search ends after at most as many names as are used.
-/
namespace Fresh

variable {α : Type*} [DecidableEq α] {name : Nat → α} {used : List α} {fuel i : Nat} {a : α}

def firstFree (name : Nat → α) (used : List α) : Nat → Nat → Option α
  | 0, _ => none
  | fuel + 1, i => if name i ∈ used then firstFree name used fuel (i + 1) else some (name i)

theorem firstFree_mono {more : Nat} (h : firstFree name used fuel i = some a) (le : fuel ≤ more) :
    firstFree name used more i = some a := by
  induction fuel generalizing more i with
  | zero => cases h
  | succ fuel ih =>
    obtain ⟨more, rfl⟩ : ∃ k, more = k + 1 := ⟨more - 1, by omega⟩
    rw [firstFree] at h ⊢
    split_ifs at h ⊢ with taken
    · exact ih h (by omega)
    · exact h

theorem firstFree_some (h : firstFree name used fuel i = some a) :
    a ∉ used ∧ ∃ j, a = name j := by
  induction fuel generalizing i with
  | zero => cases h
  | succ fuel ih =>
    rw [firstFree] at h
    split_ifs at h with taken
    · exact ih h
    · cases h
      exact ⟨taken, i, rfl⟩

theorem firstFree_none (h : firstFree name used fuel i = none) :
    ∀ j < fuel, name (i + j) ∈ used := by
  induction fuel generalizing i with
  | zero => exact fun j hj => absurd hj (Nat.not_lt_zero j)
  | succ fuel ih =>
    rw [firstFree] at h
    split_ifs at h with taken
    intro j hj
    cases j with
    | zero => exact taken
    | succ j =>
      have later := ih h j (by omega)
      rwa [Nat.add_right_comm] at later

/-- The names that were tried all differ, so they are no more than the used ones. -/
theorem exists_firstFree (inj : Function.Injective name) (i : Nat) (enough : used.length < fuel) :
    ∃ a, firstFree name used fuel i = some a := by
  cases found : firstFree name used fuel i with
  | some a => exact ⟨a, rfl⟩
  | none =>
    have tried : ((List.range fuel).map fun j => name (i + j)).Nodup :=
      List.nodup_range.map fun j k same => Nat.add_left_cancel (inj same)
    have inside : ((List.range fuel).map fun j => name (i + j)) ⊆ used := by
      intro b hb
      obtain ⟨j, hj, rfl⟩ := List.mem_map.mp hb
      exact firstFree_none found j (List.mem_range.mp hj)
    have le := (List.subperm_of_subset tried inside).length_le
    rw [List.length_map, List.length_range] at le
    omega

end Fresh
