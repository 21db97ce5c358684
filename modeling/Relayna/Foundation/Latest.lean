import Mathlib.Data.List.MinMax
import Mathlib.Data.List.Nodup
import Mathlib.Data.List.Perm.Basic
import Mathlib.Data.List.Induction

/-!
# What is latest, and what came last

Items with distinct times that arrive in some order. The latest of them does not depend on the
order. A value that is replaced whenever an item carries one is the value of the item that came
last: it is the value of the latest item in every order exactly when all items that carry a value
carry the same one.
-/
namespace Latest

variable {α β τ : Type*}

/-- No two items have the same time. -/
def Distinct (time : α → τ) (l : List α) : Prop := (l.map time).Nodup

instance [DecidableEq τ] (time : α → τ) (l : List α) : Decidable (Distinct time l) :=
  inferInstanceAs (Decidable (List.Nodup _))

section Distinct

variable {time : α → τ} {l l' : List α}

theorem Distinct.perm (h : Distinct time l) (perm : l'.Perm l) : Distinct time l' :=
  (perm.map time).nodup_iff.mpr h

theorem Distinct.eq_of_mem (h : Distinct time l) {a b : α} (ha : a ∈ l) (hb : b ∈ l)
    (same : time a = time b) : a = b :=
  List.inj_on_of_nodup_map h ha hb same

end Distinct

variable [LinearOrder τ] {time : α → τ} {l l' : List α}

theorem argmax_eq_of_le {m : α} (h : Distinct time l) (hm : m ∈ l) (le : ∀ a ∈ l, time a ≤ time m) :
    l.argmax time = some m := by
  cases found : l.argmax time with
  | none =>
    rw [List.argmax_eq_none.mp found] at hm
    cases hm
  | some n =>
    have hn := List.argmax_mem found
    rw [h.eq_of_mem hn hm (le_antisymm (le n hn) (List.le_of_mem_argmax hm found))]

theorem argmax_perm (h : Distinct time l) (perm : l'.Perm l) : l'.argmax time = l.argmax time := by
  cases found : l.argmax time with
  | none =>
    rw [List.argmax_eq_none] at found ⊢
    exact (found ▸ perm).eq_nil
  | some m =>
    refine argmax_eq_of_le (h.perm perm) (perm.mem_iff.mpr (List.argmax_mem found)) fun a ha => ?_
    exact List.le_of_mem_argmax (perm.mem_iff.mp ha) found

theorem argmin_perm (h : Distinct time l) (perm : l'.Perm l) : l'.argmin time = l.argmin time :=
  argmax_perm (τ := τᵒᵈ) h perm

/-! ## Values that some items carry -/

variable {f : α → Option β}

/-- The value that was carried last. -/
def lastCarried (f : α → Option β) (l : List α) : Option β :=
  l.foldl (fun seen a => (f a).or seen) none

/-- The value of the latest item that carries one. -/
def latestCarried (time : α → τ) (f : α → Option β) (l : List α) : Option β :=
  ((l.filter fun a => (f a).isSome).argmax time).bind f

/-- All items that carry a value carry the same one. -/
def Agree (f : α → Option β) (l : List α) : Prop :=
  ∀ a ∈ l, ∀ b ∈ l, ∀ x y, f a = some x → f b = some y → x = y

theorem lastCarried_concat (l : List α) (a : α) :
    lastCarried f (l ++ [a]) = (f a).or (lastCarried f l) := by
  rw [lastCarried, List.foldl_append]
  rfl

theorem lastCarried_eq_none : lastCarried f l = none ↔ ∀ a ∈ l, f a = none := by
  induction l using List.reverseRecOn with
  | nil => simp [lastCarried]
  | append_singleton l a ih =>
    rw [lastCarried_concat, Option.or_eq_none_iff, ih, List.forall_mem_append,
      List.forall_mem_singleton, and_comm]

theorem lastCarried_mem {x : β} (h : lastCarried f l = some x) : ∃ a ∈ l, f a = some x := by
  induction l using List.reverseRecOn with
  | nil => cases h
  | append_singleton l a ih =>
    rw [lastCarried_concat] at h
    cases carried : f a with
    | none =>
      rw [carried, Option.none_or] at h
      obtain ⟨b, hb, same⟩ := ih h
      exact ⟨b, List.mem_append_left _ hb, same⟩
    | some y =>
      rw [carried, Option.some_or] at h
      exact ⟨a, List.mem_append_right _ (List.mem_singleton_self a), carried.trans h⟩

theorem latestCarried_eq_none : latestCarried time f l = none ↔ ∀ a ∈ l, f a = none := by
  unfold latestCarried
  cases found : (l.filter fun a => (f a).isSome).argmax time with
  | none =>
    rw [List.argmax_eq_none, List.filter_eq_nil_iff] at found
    simpa using found
  | some m =>
    obtain ⟨hm, carries⟩ := List.mem_filter.mp (List.argmax_mem found)
    refine ⟨fun none_ => ?_, fun all => ?_⟩
    · rw [Option.bind_some] at none_
      rw [none_] at carries
      cases carries
    · rw [all m hm] at carries
      cases carries

theorem latestCarried_mem {x : β} (h : latestCarried time f l = some x) :
    ∃ a ∈ l, f a = some x := by
  obtain ⟨m, found, carried⟩ := Option.bind_eq_some_iff.mp h
  exact ⟨m, List.mem_of_mem_filter (List.argmax_mem found), carried⟩

/-- In every order the value that came last is that of the latest item. -/
theorem lastCarried_eq_latest_iff (time : α → τ) :
    (∀ l', l'.Perm l → lastCarried f l' = latestCarried time f l) ↔ Agree f l := by
  constructor
  · intro every a ha b hb x y hx hy
    -- Whatever carries a value may come last.
    have comesLast {a : α} (ha : a ∈ l) {x : β} (hx : f a = some x) :
        latestCarried time f l = some x := by
      obtain ⟨u, v, rfl⟩ := List.append_of_mem ha
      have perm : ((u ++ v) ++ [a]).Perm (u ++ a :: v) :=
        (List.perm_append_singleton a (u ++ v)).trans List.perm_middle.symm
      rw [← every _ perm, lastCarried_concat, hx, Option.some_or]
    exact Option.some.inj ((comesLast ha hx).symm.trans (comesLast hb hy))
  · intro agree l' perm
    cases last : lastCarried f l' with
    | none =>
      rw [lastCarried_eq_none] at last
      exact (latestCarried_eq_none.mpr fun a ha => last a (perm.mem_iff.mpr ha)).symm
    | some x =>
      obtain ⟨a, ha, hx⟩ := lastCarried_mem last
      have ha := perm.mem_iff.mp ha
      cases latest : latestCarried time f l with
      | none =>
        rw [latestCarried_eq_none.mp latest a ha] at hx
        cases hx
      | some y =>
        obtain ⟨b, hb, hy⟩ := latestCarried_mem latest
        rw [agree a ha b hb x y hx hy]

end Latest
