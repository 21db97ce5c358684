import Mathlib.Data.List.Sort

/-!
# Sorted sets

Redis sorted sets: every member has one integer score, and a range lists members by score and
then by member. The members are kept without repetition by the structure itself.
-/

structure SortedSet (α : Type*) where
  entries : List (α × Int)
  nodup : (entries.map Prod.fst).Nodup

namespace SortedSet

variable {α : Type*}

def empty : SortedSet α := ⟨[], by simp⟩

theorem nodup_filter (z : SortedSet α) (p : α × Int → Bool) :
    ((z.entries.filter p).map Prod.fst).Nodup :=
  z.nodup.sublist (List.filter_sublist.map _)

variable [LinearOrder α]

/-- `ZREM`. -/
def remove (z : SortedSet α) (a : α) : SortedSet α :=
  ⟨z.entries.filter fun e => e.1 ≠ a, z.nodup_filter _⟩

/-- `ZADD`, which replaces the score of a member it finds. -/
def add (z : SortedSet α) (a : α) (score : Int) : SortedSet α where
  entries := (a, score) :: (z.remove a).entries
  nodup := by
    refine List.nodup_cons.mpr ⟨?_, (z.remove a).nodup⟩
    simp [remove]

/-- Listed before: by score, then by member. -/
def Before (x y : α × Int) : Prop := x.2 < y.2 ∨ (x.2 = y.2 ∧ x.1 ≤ y.1)

instance : DecidableRel (Before (α := α)) := fun _ _ => inferInstanceAs (Decidable (_ ∨ _))

/-- The entries whose score is at most `max`. -/
def due (z : SortedSet α) (max : Int) : List (α × Int) := z.entries.filter fun e => e.2 ≤ max

/-- `ZRANGEBYSCORE key -inf max LIMIT 0 num`. A negative `num` is no limit. -/
def rangeByScore (z : SortedSet α) (max num : Int) : List α :=
  let members := ((z.due max).insertionSort Before).map Prod.fst
  if num < 0 then members else members.take num.toNat

@[simp] theorem mem_remove {z : SortedSet α} {a b : α} {score : Int} :
    (b, score) ∈ (z.remove a).entries ↔ b ≠ a ∧ (b, score) ∈ z.entries := by
  simp [remove, and_comm]

@[simp] theorem mem_add {z : SortedSet α} {a b : α} {score x : Int} :
    (b, x) ∈ (z.add a score).entries ↔ (b = a ∧ x = score) ∨ (b ≠ a ∧ (b, x) ∈ z.entries) := by
  simp [add]

theorem sorted_perm (z : SortedSet α) (max : Int) :
    (((z.due max).insertionSort Before).map Prod.fst).Perm ((z.due max).map Prod.fst) :=
  (List.perm_insertionSort _ _).map _

theorem rangeByScore_sublist (z : SortedSet α) (max num : Int) :
    (z.rangeByScore max num).Sublist (((z.due max).insertionSort Before).map Prod.fst) := by
  unfold rangeByScore
  split
  · exact List.Sublist.refl _
  · exact List.take_sublist _ _

theorem nodup_rangeByScore (z : SortedSet α) (max num : Int) : (z.rangeByScore max num).Nodup := by
  have sorted : (((z.due max).insertionSort Before).map Prod.fst).Nodup :=
    (z.sorted_perm max).nodup_iff.mpr (z.nodup_filter _)
  exact sorted.sublist (z.rangeByScore_sublist max num)

theorem exists_score_of_mem {z : SortedSet α} {max num : Int} {a : α}
    (h : a ∈ z.rangeByScore max num) : ∃ score, (a, score) ∈ z.entries ∧ score ≤ max := by
  have sorted := (z.rangeByScore_sublist max num).mem h
  obtain ⟨⟨b, score⟩, hb, rfl⟩ := List.mem_map.mp ((z.sorted_perm max).mem_iff.mp sorted)
  exact ⟨score, by simpa [due] using hb⟩

/-- A limit that covers the due entries cuts none of them off. -/
theorem mem_rangeByScore {z : SortedSet α} {max num score : Int} {a : α}
    (enough : ((z.due max).length : Int) ≤ num) (h : (a, score) ∈ z.entries) (hs : score ≤ max) :
    a ∈ z.rangeByScore max num := by
  have sorted : a ∈ ((z.due max).insertionSort Before).map Prod.fst := by
    refine (z.sorted_perm max).mem_iff.mpr (List.mem_map.mpr ⟨(a, score), ?_, rfl⟩)
    simpa [due] using ⟨h, hs⟩
  have whole : (((z.due max).insertionSort Before).map Prod.fst).length ≤ num.toNat := by
    rw [List.length_map, List.length_insertionSort]
    omega
  unfold rangeByScore
  split
  · exact sorted
  · rwa [List.take_of_length_le whole]

/-! ## Ranges by rank -/

/-- The entries in the order of `ZRANGE`. -/
def sorted (z : SortedSet α) : List (α × Int) := z.entries.insertionSort Before

/-- `ZCARD`. -/
def card (z : SortedSet α) : Nat := z.entries.length

/-- `ZSCORE`. -/
def score (z : SortedSet α) (a : α) : Option Int :=
  (z.entries.find? fun e => e.1 = a).map Prod.snd

/-- `ZRANGE key 0 (n - 1)`. -/
def lowest (z : SortedSet α) (n : Nat) : List α := (z.sorted.take n).map Prod.fst

/-- `ZREMRANGEBYRANK key 0 (n - 1)`. -/
def removeLowest (z : SortedSet α) (n : Nat) : SortedSet α :=
  ⟨z.entries.filter fun e => e.1 ∉ z.lowest n, z.nodup_filter _⟩

/-- `ZREVRANGE key 0 (n - 1)`. -/
def highest (z : SortedSet α) (n : Nat) : List α := (z.sorted.reverse.take n).map Prod.fst

/-- `ZREVRANGEBYSCORE key (score -inf LIMIT 0 n`. -/
def highestBelow (z : SortedSet α) (score : Int) (n : Nat) : List α :=
  ((z.sorted.reverse.filter fun e => e.2 < score).take n).map Prod.fst

/-- The entries are kept from the highest score to the lowest, and no two scores are equal. A
set that is only added to with growing scores stays so. -/
def Descending (z : SortedSet α) : Prop := z.entries.Pairwise fun x y => y.2 < x.2

variable {z : SortedSet α}

instance : Std.Total (Before (α := α)) where
  total x y := by
    unfold Before
    rcases lt_trichotomy x.2 y.2 with hs | hs | hs
    · exact Or.inl (Or.inl hs)
    · exact (le_total x.1 y.1).imp (fun hm => Or.inr ⟨hs, hm⟩) fun hm => Or.inr ⟨hs.symm, hm⟩
    · exact Or.inr (Or.inl hs)

instance : IsTrans (α × Int) Before where
  trans x y w hxy hyw := by
    unfold Before at *
    rcases hxy with hxy | ⟨hxy, first⟩ <;> rcases hyw with hyw | ⟨hyw, second⟩
    · exact Or.inl (hxy.trans hyw)
    · exact Or.inl (hyw ▸ hxy)
    · exact Or.inl (hxy ▸ hyw)
    · exact Or.inr ⟨hxy.trans hyw, first.trans second⟩

theorem Descending.sorted_eq (h : Descending z) : z.sorted = z.entries.reverse := by
  have ascending : z.entries.reverse.Pairwise Before := by
    rw [List.pairwise_reverse]
    exact h.imp fun hs => Or.inl hs
  have perm : z.sorted.Perm z.entries.reverse :=
    (List.perm_insertionSort _ _).trans (List.reverse_perm _).symm
  refine perm.eq_of_pairwise ?_ (List.pairwise_insertionSort _ _) ascending
  intro x y hx hy hxy hyx
  unfold Before at hxy hyx
  rcases hxy with hxy | ⟨scores, hxy⟩ <;> rcases hyx with hyx | ⟨scores', hyx⟩
  · omega
  · omega
  · omega
  · exact Prod.ext (le_antisymm hxy hyx) scores

theorem Descending.add (h : Descending z) {a : α} {score : Int}
    (above : ∀ e ∈ z.entries, e.2 < score) : Descending (z.add a score) := by
  refine List.pairwise_cons.mpr ⟨fun e he => ?_, h.filter _⟩
  exact above e (List.mem_of_mem_filter he)

theorem add_members (z : SortedSet α) (a : α) (score : Int) :
    (z.add a score).entries.map Prod.fst = a :: (z.entries.map Prod.fst).filter (· ≠ a) := by
  simp only [SortedSet.add, remove, List.map_cons, List.filter_map]
  rfl

theorem mem_removeLowest {n : Nat} {a : α} :
    a ∈ (z.removeLowest n).entries.map Prod.fst ↔
      a ∈ z.entries.map Prod.fst ∧ a ∉ z.lowest n := by
  simp only [SortedSet.removeLowest, List.mem_map, List.mem_filter, decide_eq_true_eq]
  constructor
  · rintro ⟨e, ⟨he, kept⟩, rfl⟩
    exact ⟨⟨e, he, rfl⟩, kept⟩
  · rintro ⟨⟨e, he, rfl⟩, kept⟩
    exact ⟨e, ⟨he, kept⟩, rfl⟩

theorem Descending.highest_eq (h : Descending z) (n : Nat) :
    z.highest n = (z.entries.take n).map Prod.fst := by
  rw [highest, h.sorted_eq, List.reverse_reverse]

theorem Descending.removeLowest_entries (h : Descending z) (n : Nat) :
    (z.removeLowest n).entries = z.entries.take (z.card - n) := by
  have low : z.lowest n = (z.entries.drop (z.card - n)).reverse.map Prod.fst := by
    rw [lowest, h.sorted_eq, List.take_reverse]
    rfl
  have nodup := z.nodup
  rw [← List.take_append_drop (z.card - n) z.entries, List.map_append, List.nodup_append] at nodup
  have kept : (z.entries.take (z.card - n)).filter (fun e => e.1 ∉ z.lowest n) =
      z.entries.take (z.card - n) := by
    refine List.filter_eq_self.mpr fun e he => ?_
    simp only [low, List.map_reverse, List.mem_reverse, decide_eq_true_eq]
    exact fun hd => nodup.2.2 e.1 (List.mem_map_of_mem he) e.1 hd rfl
  have dropped : (z.entries.drop (z.card - n)).filter (fun e => e.1 ∉ z.lowest n) = [] := by
    refine List.filter_eq_nil_iff.mpr fun e he => ?_
    simp only [low, List.map_reverse, List.mem_reverse, decide_eq_true_eq, not_not]
    exact List.mem_map_of_mem he
  have split := List.filter_append (z.entries.take (z.card - n)) (z.entries.drop (z.card - n))
    (p := fun e => decide (e.1 ∉ z.lowest n))
  rw [List.take_append_drop, kept, dropped, List.append_nil] at split
  exact split

theorem Descending.highestBelow_eq (h : Descending z) {above below : List (α × Int)} {a : α}
    {score : Int} (split : z.entries = above ++ (a, score) :: below) (n : Nat) :
    z.highestBelow score n = (below.take n).map Prod.fst := by
  have order := h
  rw [Descending, split, List.pairwise_append] at order
  obtain ⟨-, lower, higher⟩ := order
  have high : above.filter (fun e => e.2 < score) = [] := by
    refine List.filter_eq_nil_iff.mpr fun e he => ?_
    have := higher e he (a, score) List.mem_cons_self
    simp only [decide_eq_true_eq]
    omega
  have low : below.filter (fun e => e.2 < score) = below := by
    refine List.filter_eq_self.mpr fun e he => ?_
    simpa using (List.pairwise_cons.mp lower).1 e he
  rw [highestBelow, h.sorted_eq, List.reverse_reverse, split, List.filter_append, high,
    List.filter_cons_of_neg (by simp), low, List.nil_append]

theorem score_eq_some_iff {a : α} {x : Int} : z.score a = some x ↔ (a, x) ∈ z.entries := by
  unfold score
  constructor
  · intro h
    obtain ⟨⟨b, y⟩, found, rfl⟩ := Option.map_eq_some_iff.mp h
    have hb : b = a := by simpa using List.find?_some found
    exact hb ▸ List.mem_of_find?_eq_some found
  · intro h
    have found : (z.entries.find? fun e => e.1 = a).isSome :=
      List.find?_isSome.mpr ⟨(a, x), h, by simp⟩
    obtain ⟨⟨b, y⟩, hb⟩ := Option.isSome_iff_exists.mp found
    have same : b = a := by simpa using List.find?_some hb
    have unique := List.inj_on_of_nodup_map z.nodup (List.mem_of_find?_eq_some hb) h same
    rw [hb]
    simp [(Prod.mk.inj unique).2]

/-! ## Ranges by score, from the highest -/

/-- `ZREVRANGEBYSCORE`, for the scores in a window. -/
def revRange (z : SortedSet α) (window : Int → Bool) : List (α × Int) :=
  z.sorted.reverse.filter fun e => window e.2

theorem mem_revRange {window : Int → Bool} {e : α × Int} :
    e ∈ z.revRange window ↔ e ∈ z.entries ∧ window e.2 := by
  rw [revRange, List.mem_filter, List.mem_reverse, sorted, List.mem_insertionSort]

theorem pairwise_revRange (z : SortedSet α) (window : Int → Bool) :
    (z.revRange window).Pairwise fun x y => Before y x :=
  (List.pairwise_reverse.mpr (List.pairwise_insertionSort Before z.entries)).filter _

theorem nodup_revRange (z : SortedSet α) (window : Int → Bool) :
    ((z.revRange window).map Prod.fst).Nodup := by
  have whole : (z.sorted.reverse.map Prod.fst).Nodup :=
    (((List.reverse_perm z.sorted).trans (List.perm_insertionSort _ _)).map _).nodup_iff.mpr z.nodup
  exact whole.sublist (List.filter_sublist.map _)

/-- A new member takes its place, the others keep theirs. -/
theorem revRange_add {a : α} (fresh : a ∉ z.entries.map Prod.fst) (score : Int)
    (window : Int → Bool) : (z.revRange window).Sublist ((z.add a score).revRange window) := by
  have kept : (z.remove a).entries = z.entries := by
    refine List.filter_eq_self.mpr fun e he => ?_
    simpa using fun same : e.1 = a => fresh (same ▸ List.mem_map_of_mem he)
  have added : (z.add a score).sorted = z.sorted.orderedInsert Before (a, score) := by
    change ((a, score) :: (z.remove a).entries).insertionSort Before = _
    rw [kept, List.insertionSort_cons]
    rfl
  rw [revRange, revRange, added]
  exact (List.sublist_orderedInsert _ _).reverse.filter _

end SortedSet
