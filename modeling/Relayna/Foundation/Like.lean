import Mathlib.Data.List.Infix

/-!
# `LIKE`

The patterns of SQL, without escapes: `%` stands for any text and `_` for any character. A plain
text between two `%` is found wherever it occurs.
-/
namespace Like

def like : List Char → List Char → Bool
  | [], s => s.isEmpty
  | c :: p, s =>
    if c = '%' then s.tails.any (like p)
    else s.head?.any (fun d => c = '_' || c = d) && like p s.tail

/-- The pattern that is found wherever the text occurs. -/
def anywhere (t : List Char) : List Char := '%' :: t ++ ['%']

/-- The characters stand for themselves. -/
def Plain (t : List Char) : Prop := ∀ c ∈ t, c ≠ '%' ∧ c ≠ '_'

variable {t s : List Char}

theorem like_any : like ['%'] s = true := by
  rw [like, if_pos rfl, List.any_eq_true]
  exact ⟨[], (List.mem_tails _ _).mpr List.nil_suffix, rfl⟩

theorem like_starts (plain : Plain t) : like (t ++ ['%']) s = true ↔ t <+: s := by
  induction t generalizing s with
  | nil => exact iff_of_true like_any List.nil_prefix
  | cons c t ih =>
    obtain ⟨percent, underscore⟩ := plain c List.mem_cons_self
    rw [List.cons_append, like, if_neg percent]
    cases s with
    | nil => simp
    | cons d s =>
      have rest : Plain t := fun c hc => plain c (List.mem_cons_of_mem _ hc)
      simp [List.cons_prefix_cons, underscore, ih rest]

theorem like_anywhere (plain : Plain t) : like (anywhere t) s = true ↔ t <:+: s := by
  rw [anywhere, List.cons_append, like, if_pos rfl, List.any_eq_true, List.infix_iff_prefix_suffix]
  simp only [like_starts plain, List.mem_tails, and_comm]

end Like
