import Mathlib.Data.List.Dedup
import Mathlib.Data.List.Infix

/-!
# Bounded lists of the most recent elements

A log lists what has been used, oldest first and with repetitions. `recency` lists each element
of the log once, by its last use and newest first. A list that is kept by moving the used element
to the front and cutting to `n` is the start of that, so nothing is lost by cutting early.
-/
namespace Recency

variable {α : Type*} [DecidableEq α]

/-- Each element once, the one used last in front. -/
def recency (log : List α) : List α := log.dedup.reverse

/-- Move an element to the front and keep `n`. -/
def touch (n : Nat) (a : α) (l : List α) : List α := (a :: l.filter (· ≠ a)).take n

theorem nodup_recency (log : List α) : (recency log).Nodup :=
  List.nodup_reverse.mpr log.nodup_dedup

theorem dedup_concat (log : List α) (a : α) :
    (log ++ [a]).dedup = log.dedup.filter (· ≠ a) ++ [a] := by
  induction log with
  | nil => simp
  | cons b log ih =>
    rw [List.cons_append]
    by_cases hb : b ∈ log
    · rw [List.dedup_cons_of_mem (by simp [hb]), List.dedup_cons_of_mem hb, ih]
    · by_cases ha : b = a
      · subst ha
        rw [List.dedup_cons_of_mem (by simp), List.dedup_cons_of_notMem hb, ih]
        simp
      · rw [List.dedup_cons_of_notMem (by simp [hb, ha]), List.dedup_cons_of_notMem hb, ih]
        simp [ha]

theorem recency_concat (log : List α) (a : α) :
    recency (log ++ [a]) = a :: (recency log).filter (· ≠ a) := by
  rw [recency, dedup_concat, List.reverse_append, recency, List.filter_reverse]
  rfl

/-- Cutting off the end before the element is moved cuts off nothing that would be kept. -/
theorem take_filter_take {l : List α} (nodup : l.Nodup) (a : α) (n : Nat) :
    ((l.take (n + 1)).filter (· ≠ a)).take n = (l.filter (· ≠ a)).take n := by
  induction l generalizing n with
  | nil => simp
  | cons b l ih =>
    obtain ⟨hb, hl⟩ := List.nodup_cons.mp nodup
    by_cases ha : b = a
    · have others : ∀ x ∈ l, decide (x ≠ a) = true := by
        intro x hx
        simp only [ne_eq, decide_eq_true_eq]
        rintro rfl
        exact hb (ha ▸ hx)
      have kept : (l.take n).filter (· ≠ a) = l.take n :=
        List.filter_eq_self.mpr fun x hx => others x (List.mem_of_mem_take hx)
      have whole : l.filter (· ≠ a) = l := List.filter_eq_self.mpr others
      simp only [List.take_succ_cons, ha, ne_eq, not_true_eq_false, decide_false,
        Bool.false_eq_true, not_false_eq_true, List.filter_cons_of_neg]
      rw [kept, whole, List.take_take, min_self]
    · cases n with
      | zero => simp
      | succ n => simpa [List.filter_cons, ha] using ih hl n

/-- The kept list follows the log. -/
theorem touch_take_recency (n : Nat) (log : List α) (a : α) :
    touch (n + 1) a ((recency log).take (n + 1)) = (recency (log ++ [a])).take (n + 1) := by
  rw [recency_concat, touch, List.take_succ_cons, List.take_succ_cons,
    take_filter_take (nodup_recency log)]

/-- What comes after an element that stays where it is loses only from its end and what is
moved. -/
theorem touch_split {n : Nat} {a c : α} {above below : List α} (hac : a ≠ c)
    (kept : c ∈ touch n a (above ++ c :: below)) (nodup : (above ++ c :: below).Nodup) :
    ∃ below', touch n a (above ++ c :: below) = (a :: above.filter (· ≠ a)) ++ c :: below' ∧
      below' <+: below.filter (· ≠ a) := by
  have order : a :: (above ++ c :: below).filter (· ≠ a) =
      (a :: above.filter (· ≠ a)) ++ c :: below.filter (· ≠ a) := by
    simp [hac.symm]
  have outside : c ∉ a :: above.filter (· ≠ a) := by
    rw [List.nodup_append] at nodup
    simp only [List.mem_cons, List.mem_filter, not_or]
    exact ⟨hac.symm, fun h => nodup.2.2 c h.1 c List.mem_cons_self rfl⟩
  unfold touch at kept ⊢
  rw [order, List.take_append] at kept ⊢
  rcases List.mem_append.mp kept with kept | kept
  · exact absurd (List.mem_of_mem_take kept) outside
  · obtain ⟨m, hm⟩ : ∃ m, n - (a :: above.filter (· ≠ a)).length = m + 1 := by
      refine Nat.exists_eq_succ_of_ne_zero fun zero => ?_
      rw [zero] at kept
      simp at kept
    rw [hm, List.take_succ_cons, List.take_of_length_le (by omega)]
    exact ⟨_, rfl, List.take_prefix _ _⟩

end Recency
