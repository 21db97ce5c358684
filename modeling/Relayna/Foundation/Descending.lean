import Mathlib.Data.List.Sort
import Relayna.Foundation.Pages

/-!
# Lists that are sorted downwards

The order is a comparison, as `compareLex` and `compareOn` compose it. Where no two elements
compare as equal there is only one way to sort them, so it does not matter what was done first,
filtering or sorting, nor which of two comparisons was used if they agree on the elements.

Such a list can be read on from one of its elements by its place or by the comparison with it.
-/
namespace Descending

open Std Pages

variable {α β κ : Type*} {cmp : α → α → Ordering} {l l' : List α}

/-- The greatest first; elements that compare as equal stay in their order. -/
def sort (cmp : α → α → Ordering) (l : List α) : List α :=
  l.insertionSort fun a b => (cmp a b).isGE = true

def Sorted (cmp : α → α → Ordering) (l : List α) : Prop := l.Pairwise fun a b => cmp a b = .gt

/-- No two elements compare as equal. -/
def Distinct (cmp : α → α → Ordering) (l : List α) : Prop := l.Pairwise fun a b => cmp a b ≠ .eq

theorem sort_perm (cmp : α → α → Ordering) (l : List α) : (sort cmp l).Perm l :=
  List.perm_insertionSort _ l

theorem mem_sort {a : α} : a ∈ sort cmp l ↔ a ∈ l := (sort_perm cmp l).mem_iff

/-- The elements that compare as equal to that one. -/
def alike (cmp : α → α → Ordering) (x : α) (l : List α) : List α := l.filter fun y => cmp y x = .eq

def Ordered (cmp : α → α → Ordering) (l : List α) : Prop :=
  l.Pairwise fun a b => (cmp a b).isGE = true

theorem alike_cons {a x : α} (eq : cmp a x = .eq) : alike cmp x (a :: l) = a :: alike cmp x l :=
  List.filter_cons_of_pos (decide_eq_true eq)

theorem alike_cons_of_ne {a x : α} (ne : cmp a x ≠ .eq) :
    alike cmp x (a :: l) = alike cmp x l :=
  List.filter_cons_of_neg (by simpa using ne)

section Oriented

variable [OrientedCmp cmp]

theorem total_isGE : Std.Total fun a b => (cmp a b).isGE = true := ⟨fun a b => by
  rw [OrientedCmp.isGE_iff_isLE (a := b)]
  cases cmp a b <;> simp⟩

theorem Distinct.perm (h : Distinct cmp l) (perm : l.Perm l') : Distinct cmp l' :=
  List.Pairwise.perm h perm fun ne same => ne (OrientedCmp.eq_comm.mp same)

theorem Sorted.eq_of_perm (h : Sorted cmp l) (h' : Sorted cmp l') (perm : l.Perm l') : l = l' := by
  refine List.Perm.eq_of_pairwise (fun a b _ _ above below => ?_) h h' perm
  rw [OrientedCmp.gt_iff_lt.mp above] at below
  cases below

theorem Sorted.nodup (h : Sorted cmp l) : l.Nodup := by
  refine h.imp fun {a b} gt same => ?_
  subst same
  cases gt.symm.trans (OrientedCmp.gt_iff_lt.mp gt)

/-- What is compared with an element as less comes after it. -/
theorem Sorted.filter_lt {above rest : List α} {a : α} (h : Sorted cmp (above ++ a :: rest)) :
    (above ++ a :: rest).filter (fun x => cmp x a = .lt) = rest := by
  obtain ⟨-, tail, before⟩ := List.pairwise_append.mp h
  have first : above.filter (fun x => cmp x a = .lt) = [] := by
    refine List.filter_eq_nil_iff.mpr fun x mem same => ?_
    have gt := before x mem a List.mem_cons_self
    rw [of_decide_eq_true same] at gt
    cases gt
  have last : rest.filter (fun x => cmp x a = .lt) = rest := by
    refine List.filter_eq_self.mpr fun x mem => decide_eq_true ?_
    exact OrientedCmp.gt_iff_lt.mp (List.rel_of_pairwise_cons tail mem)
  have self : cmp a a ≠ .lt := fun lt => by
    rw [OrientedCmp.gt_iff_lt.mpr lt] at lt
    cases lt
  rw [List.filter_append, first, List.filter_cons_of_neg (by simpa using self), last,
    List.nil_append]

end Oriented

section Trans

variable [TransCmp cmp]

theorem isGE_trans {a b d : α} (hab : (cmp a b).isGE = true) (hbd : (cmp b d).isGE = true) :
    (cmp a d).isGE = true := by
  rw [OrientedCmp.isGE_iff_isLE] at *
  exact TransCmp.isLE_trans hbd hab

theorem isGE_self {a : α} : (cmp a a).isGE = true := by
  have self : cmp a a = .eq := ReflCmp.compare_self
  rw [self]
  rfl

theorem ordered_sort (cmp : α → α → Ordering) [TransCmp cmp] (l : List α) :
    Ordered cmp (sort cmp l) := by
  have total : Std.Total fun a b => (cmp a b).isGE = true := total_isGE
  have trans : IsTrans α fun a b => (cmp a b).isGE = true := ⟨fun _ _ _ => isGE_trans⟩
  exact List.pairwise_insertionSort _ l

/-- The sort is stable. -/
theorem alike_sort (x : α) : alike cmp x (sort cmp l) = alike cmp x l := by
  have pairs : (alike cmp x l).Pairwise fun a b => (cmp a b).isGE = true := by
    refine List.pairwise_of_forall_mem_list fun a ha b hb => ?_
    have hax : cmp a x = .eq := of_decide_eq_true (List.mem_filter.mp ha).2
    have hbx : cmp b x = .eq := of_decide_eq_true (List.mem_filter.mp hb).2
    rw [TransCmp.eq_trans hax (OrientedCmp.eq_symm hbx)]
    rfl
  have total : Std.Total fun a b => (cmp a b).isGE = true := total_isGE
  have trans : IsTrans α fun a b => (cmp a b).isGE = true := ⟨fun _ _ _ => isGE_trans⟩
  have inside : (alike cmp x l).Sublist (sort cmp l) :=
    List.sublist_insertionSort pairs List.filter_sublist
  have both : (alike cmp x l).Sublist (alike cmp x (sort cmp l)) := by
    have := inside.filter fun y => cmp y x = .eq
    rwa [alike, List.filter_filter, List.filter_congr fun _ _ => Bool.and_self _] at this
  exact (both.eq_of_length ((sort_perm cmp l).filter _).length_eq.symm).symm

/-- What is sorted is known from the order of what compares as equal. -/
theorem Ordered.eq_of_alike (h : Ordered cmp l) (h' : Ordered cmp l')
    (same : ∀ x, alike cmp x l = alike cmp x l') : l = l' := by
  have mem_of {m m' : List α} (eqs : ∀ x, alike cmp x m = alike cmp x m') {a : α} (ha : a ∈ m) :
      a ∈ m' := by
    have here : a ∈ alike cmp a m := List.mem_filter.mpr ⟨ha, decide_eq_true ReflCmp.compare_self⟩
    exact (List.mem_filter.mp (eqs a ▸ here)).1
  induction l generalizing l' with
  | nil =>
    cases l' with
    | nil => rfl
    | cons b l' => exact absurd (mem_of (fun x => (same x).symm) List.mem_cons_self) (by simp)
  | cons a l ih =>
    cases l' with
    | nil => exact absurd (mem_of same List.mem_cons_self) (by simp)
    | cons b l' =>
      rw [Ordered, List.pairwise_cons] at h h'
      -- Each head is in the other list, so neither is less than the other.
      have hab : (cmp a b).isGE = true := by
        rcases List.mem_cons.mp (mem_of (fun x => (same x).symm) List.mem_cons_self) with rfl | hb
        · exact isGE_self
        · exact h.1 b hb
      have hba : (cmp b a).isGE = true := by
        rcases List.mem_cons.mp (mem_of same List.mem_cons_self) with rfl | ha
        · exact isGE_self
        · exact h'.1 a ha
      have eq : cmp b a = .eq := by
        rw [OrientedCmp.isGE_iff_isLE] at hab
        cases hc : cmp b a <;> simp_all
      have heads := same a
      rw [alike_cons ReflCmp.compare_self, alike_cons eq] at heads
      obtain rfl := (List.cons.inj heads).1
      refine congrArg (a :: ·) (ih h.2 h'.2 fun x => ?_)
      have tails := same x
      by_cases hx : cmp a x = .eq
      · rw [alike_cons hx, alike_cons hx] at tails
        exact (List.cons.inj tails).2
      · rwa [alike_cons_of_ne hx, alike_cons_of_ne hx] at tails

theorem sort_eq_of_alike (same : ∀ x, alike cmp x l = alike cmp x l') :
    sort cmp l = sort cmp l' :=
  (ordered_sort cmp l).eq_of_alike (ordered_sort cmp l') fun x => by
    rw [alike_sort, alike_sort, same x]

theorem Ordered.sort_eq (h : Ordered cmp l) : sort cmp l = l :=
  (ordered_sort cmp l).eq_of_alike h fun _ => alike_sort _

theorem sorted_sort (distinct : Distinct cmp l) : Sorted cmp (sort cmp l) := by
  have ordered := ordered_sort cmp l
  refine (ordered.and (distinct.perm (sort_perm cmp l).symm)).imp fun {a b} h => ?_
  obtain ⟨ge, ne⟩ := h
  cases hc : cmp a b <;> simp_all

/-- Whatever is filtered before or after sorting. -/
theorem sort_filter (distinct : Distinct cmp l) (p : α → Bool) :
    (sort cmp l).filter p = sort cmp (l.filter p) := by
  have kept : Distinct cmp (l.filter p) := distinct.filter p
  refine Sorted.eq_of_perm ((sorted_sort distinct).filter p) (sorted_sort kept) ?_
  exact ((sort_perm cmp l).filter p).trans (sort_perm cmp _).symm

end Trans

end Descending
