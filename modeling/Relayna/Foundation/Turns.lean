import Mathlib.Data.List.Basic

/-!
# Sources that give what they hold, turn by turn

A turn of a source gives some items and leaves the source in another state. What is true at the
start and stays true in a turn is true however many turns were taken, and a source that holds what
it gives and what it then still holds gives a start of what it held.
-/
namespace Turns

variable {σ α : Type*} {turn : σ → Option (List α × σ)} {s t u : σ} {xs ys : List α}

/-- In some turns the source comes from `s` to `t` and gives `xs`. -/
inductive Gives (turn : σ → Option (List α × σ)) (s : σ) : List α → σ → Prop
  | stay : Gives turn s [] s
  | next {xs ys : List α} {t u : σ} (h : Gives turn s xs t) (step : turn t = some (ys, u)) :
      Gives turn s (xs ++ ys) u

/-- What is true at the start and stays true in a turn stays true. -/
theorem Gives.invariant {P : List α → σ → Prop} (h : Gives turn s xs t) (start : P [] s)
    (step : ∀ xs t ys u, P xs t → turn t = some (ys, u) → P (xs ++ ys) u) : P xs t := by
  induction h with
  | stay => exact start
  | next _ taken ih => exact step _ _ _ _ ih taken

theorem Gives.of_stuck (h : Gives turn s xs t) (stuck : turn s = none) : xs = [] ∧ t = s := by
  induction h with
  | stay => exact ⟨rfl, rfl⟩
  | next _ step ih =>
    rw [ih.2, stuck] at step
    cases step

/-- What a source gives is a start of what it holds. -/
theorem Gives.content {holds : σ → List α} {P : σ → Prop} (h : Gives turn s xs t) (start : P s)
    (keeps : ∀ t ys u, P t → turn t = some (ys, u) → P u ∧ holds t = ys ++ holds u) :
    P t ∧ holds s = xs ++ holds t := by
  induction h with
  | stay => exact ⟨start, rfl⟩
  | next _ step ih =>
    obtain ⟨at_t, so_far⟩ := ih
    obtain ⟨at_u, rest⟩ := keeps _ _ _ at_t step
    exact ⟨at_u, by rw [so_far, rest, List.append_assoc]⟩

end Turns
