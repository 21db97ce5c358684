import Mathlib.Logic.Function.Basic
import Mathlib.Logic.Relation

/-!
# Pointers that come to an end

A partial function as pointers: `next x` is where `x` points. The pointers are grounded when every
walk along them comes to a root, an element that points nowhere. Grounded pointers have no cycle,
and they stay grounded when one root is pointed at another.
-/
namespace Forest

variable {α : Type*} {next : α → Option α} {x y : α}

/-- A walk of any length. -/
abbrev Reaches (next : α → Option α) : α → α → Prop :=
  Relation.ReflTransGen fun x y => next x = some y

/-- A walk of at least one step. -/
abbrev Leads (next : α → Option α) : α → α → Prop :=
  Relation.TransGen fun x y => next x = some y

def Grounded (next : α → Option α) : Prop :=
  ∀ x, ∃ root, Reaches next x root ∧ next root = none

/-- From a root there is no step. -/
theorem not_leads_of_root (root : next x = none) : ¬Leads next x y := by
  intro leads
  obtain ⟨z, step, -⟩ := Relation.TransGen.head'_iff.mp leads
  rw [root] at step
  cases step

/-- A walk that starts on a cycle stays on it. -/
theorem Reaches.cycle (reach : Reaches next x y) (cycle : Leads next x x) : Leads next y y := by
  induction reach with
  | refl => exact cycle
  | tail _ step ih =>
    obtain ⟨w, first, onward⟩ := Relation.TransGen.head'_iff.mp ih
    obtain rfl := Option.some.inj (step.symm.trans first)
    exact Relation.TransGen.tail' onward step

/-- A walk comes to one root only. -/
theorem Reaches.root_unique (reach : Reaches next x y) (root : next y = none) {z : α}
    (reach' : Reaches next x z) (root' : next z = none) : y = z := by
  induction reach using Relation.ReflTransGen.head_induction_on with
  | refl =>
    rcases Relation.ReflTransGen.cases_head reach' with same | ⟨w, step, -⟩
    · exact same
    · rw [root] at step
      cases step
  | head step _ ih =>
    rcases Relation.ReflTransGen.cases_head reach' with rfl | ⟨w, step', rest⟩
    · rw [root'] at step
      cases step
    · obtain rfl := Option.some.inj (step.symm.trans step')
      exact ih rest

theorem Grounded.acyclic (grounded : Grounded next) (x : α) : ¬Leads next x x := by
  intro cycle
  obtain ⟨root, reach, ends⟩ := grounded x
  exact not_leads_of_root ends (reach.cycle cycle)

variable [DecidableEq α]

/-- One root is pointed at another. -/
theorem Grounded.link (grounded : Grounded next) {source target : α} (unlinked : next source = none)
    (root : next target = none) (other : source ≠ target) :
    Grounded (Function.update next source (some target)) := by
  have stays {x y : α} (step : next x = some y) :
      Function.update next source (some target) x = some y := by
    rw [Function.update_of_ne]
    · exact step
    · rintro rfl
      rw [unlinked] at step
      cases step
  intro x
  obtain ⟨end₀, reach, ends⟩ := grounded x
  have walk : Reaches (Function.update next source (some target)) x end₀ :=
    Relation.ReflTransGen.mono (fun _ _ step => stays step) _ _ reach
  by_cases here : end₀ = source
  · subst here
    refine ⟨target, walk.tail (Function.update_self ..), ?_⟩
    rwa [Function.update_of_ne other.symm]
  · refine ⟨end₀, walk, ?_⟩
    rwa [Function.update_of_ne here]

end Forest
