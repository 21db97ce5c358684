import Mathlib.Data.List.Infix
import Mathlib.Data.List.Nodup
import Mathlib.Data.List.TakeWhile

/-!
# Lists that are read page by page

A list is read from the front, a page at a time, and each page names the entry that the next one
begins below. Meanwhile the list grows at its front and loses its end. What stands before what in
it never changes, so the reader's place is what is still to come below its entry.
-/
namespace Pages

section Before

variable {κ : Type*} {l l' : List κ} {a b x : κ}

/-- `a` stands before `b`. -/
def Before (l : List κ) (a b : κ) : Prop := [a, b].Sublist l

theorem before_cons : Before (x :: l) a b ↔ (a = x ∧ b ∈ l) ∨ Before l a b := by
  rw [Before, List.cons_sublist_cons', List.singleton_sublist]
  exact or_comm

theorem Before.sublist (h : Before l a b) (le : l.Sublist l') : Before l' a b := h.trans le

theorem Before.mem_left (h : Before l a b) : a ∈ l := h.subset (by simp)

theorem Before.mem_right (h : Before l a b) : b ∈ l := h.subset (by simp)

theorem before_append {u v : List κ} (ha : a ∈ u) (hb : b ∈ v) : Before (u ++ v) a b :=
  (List.singleton_sublist.mpr ha).append (List.singleton_sublist.mpr hb)

theorem Before.asymm (nodup : l.Nodup) (h : Before l a b) : ¬Before l b a := by
  induction l with
  | nil => cases h
  | cons x l ih =>
    obtain ⟨hx, hl⟩ := List.nodup_cons.mp nodup
    rw [before_cons] at h ⊢
    rintro (⟨rfl, ha⟩ | h')
    · rcases h with ⟨rfl, hb⟩ | h
      · exact hx hb
      · exact hx h.mem_right
    · rcases h with ⟨rfl, -⟩ | h
      · exact hx h'.mem_right
      · exact ih hl h h'

theorem not_before_self (nodup : l.Nodup) : ¬Before l a a := fun h => h.asymm nodup h

/-- What stands before an element of the start stands there too. -/
theorem Before.of_append {v : List κ} (nodup : (l ++ v).Nodup) (h : Before (l ++ v) a b)
    (hb : b ∈ l) : Before l a b := by
  induction l with
  | nil => simp at hb
  | cons x l ih =>
    rw [List.cons_append, List.nodup_cons] at nodup
    rw [List.cons_append, before_cons] at h
    rw [before_cons]
    rcases h with ⟨rfl, hb'⟩ | h
    · refine Or.inl ⟨rfl, (List.mem_cons.mp hb).resolve_left ?_⟩
      rintro rfl
      exact nodup.1 hb'
    · refine Or.inr (ih nodup.2 h ((List.mem_cons.mp hb).resolve_left ?_))
      rintro rfl
      exact nodup.1 h.mem_right

end Before

/-- What the start of a list does not have comes with or after the entry that ends it. -/
theorem mem_takeWhile_or {α : Type*} (p : α → Bool) {l : List α} {x : α} (hx : x ∈ l) :
    x ∈ l.takeWhile p ∨ ∃ u y v, l = u ++ y :: v ∧ p y = false ∧ x ∈ y :: v := by
  induction l with
  | nil => simp at hx
  | cons y l ih =>
    by_cases hy : p y = true
    · rw [List.takeWhile_cons_of_pos hy]
      rcases List.mem_cons.mp hx with rfl | hx
      · exact Or.inl List.mem_cons_self
      · rcases ih hx with kept | ⟨u, z, v, rfl, stops, later⟩
        · exact Or.inl (List.mem_cons_of_mem y kept)
        · exact Or.inr ⟨y :: u, z, v, rfl, stops, later⟩
    · exact Or.inr ⟨[], y, l, rfl, by simpa using hy, hx⟩

section Below

variable {α κ : Type*} [DecidableEq κ] (key : α → κ)

/-- What comes after the entry of that key, and everything when there is no such entry. -/
def below (l : List α) (after : Option κ) : List α :=
  match after with
  | none => l
  | some a =>
    match l.dropWhile (fun x => key x ≠ a) with
    | [] => l
    | _ :: rest => rest

variable {key} {l : List α} {a : κ}

theorem below_split {above rest : List α} {x : α} (absent : key x ∉ above.map key) :
    below key (above ++ x :: rest) (some (key x)) = rest := by
  have passed : (above ++ x :: rest).dropWhile (fun y => key y ≠ key x) = x :: rest := by
    rw [List.dropWhile_append_of_pos, List.dropWhile_cons_of_neg (by simp)]
    intro y hy
    simp only [ne_eq, decide_not, Bool.not_eq_true', decide_eq_false_iff_not]
    exact fun same => absent (same ▸ List.mem_map_of_mem hy)
  simp only [below, passed]

theorem below_of_absent (absent : a ∉ l.map key) : below key l (some a) = l := by
  have none_left : l.dropWhile (fun y => key y ≠ a) = [] := by
    rw [List.dropWhile_eq_nil_iff]
    intro y hy
    simp only [ne_eq, decide_not, Bool.not_eq_true', decide_eq_false_iff_not]
    exact fun same => absent (same ▸ List.mem_map_of_mem hy)
  simp only [below, none_left]

/-- What is below an entry stays what it is when the list grows at its front. -/
theorem below_cons {x : α} (ne : key x ≠ a) (present : a ∈ l.map key) :
    below key (x :: l) (some a) = below key l (some a) := by
  unfold below
  dsimp only
  rw [List.dropWhile_cons_of_pos (by simpa using ne)]
  cases met : l.dropWhile (fun y => decide (key y ≠ a)) with
  | nil =>
    obtain ⟨y, hy, same⟩ := List.mem_map.mp present
    have passed := List.dropWhile_eq_nil_iff.mp met y hy
    rw [decide_eq_true_eq] at passed
    exact absurd same passed
  | cons y rest => rfl

/-- The list ends with what is below an entry of it, or with the whole of it. -/
theorem below_suffix (l : List α) (after : Option κ) : below key l after <:+ l := by
  unfold below
  split
  · exact List.suffix_rfl
  · split
    · exact List.suffix_rfl
    · rename_i x rest split
      exact (List.suffix_cons x rest).trans (split ▸ List.dropWhile_suffix _)

theorem mem_below (nodup : (l.map key).Nodup) {x : α} (hx : x ∈ l)
    (h : Before (l.map key) a (key x)) : x ∈ below key l (some a) := by
  obtain ⟨above, y, rest, rfl, rfl⟩ : ∃ above y rest, l = above ++ y :: rest ∧ key y = a := by
    obtain ⟨y, hy, same⟩ := List.mem_map.mp h.mem_left
    obtain ⟨above, rest, split⟩ := List.append_of_mem hy
    exact ⟨above, y, rest, split, same⟩
  have apart : key y ∉ above.map key := by
    rw [List.map_append, List.map_cons, List.nodup_append] at nodup
    exact fun mem => nodup.2.2 _ mem _ List.mem_cons_self rfl
  rw [below_split apart]
  rcases List.mem_append.mp hx with ha | hr
  · refine absurd h (Before.asymm nodup ?_)
    rw [List.map_append]
    exact before_append (List.mem_map_of_mem ha) (by simp)
  · refine (List.mem_cons.mp hr).resolve_left ?_
    rintro rfl
    exact not_before_self nodup h

/-- Below an entry that is kept under its key, what is kept is what comes after it. -/
theorem filterMap_below {β : Type*} {name : β → κ} {keep : α → Option β} {rest : List α} {r : β}
    {u v : List β} (named : ∀ x r, keep x = some r → name r = key x) (nodup : (l.map key).Nodup)
    (suffix : rest <:+ l) (split : rest.filterMap keep = u ++ r :: v) :
    (below key l (some (name r))).filterMap keep = v ∧ name r ∈ l.map key := by
  obtain ⟨before, after, rfl, -, later⟩ := List.filterMap_eq_append_iff.mp split
  obtain ⟨skipped, x, below_, rfl, -, here, rfl⟩ := List.filterMap_eq_cons_iff.mp later
  obtain ⟨above, rfl⟩ := suffix
  have whole : above ++ (before ++ (skipped ++ x :: below_)) =
      (above ++ before ++ skipped) ++ x :: below_ := by simp
  rw [whole] at nodup ⊢
  have absent : key x ∉ (above ++ before ++ skipped).map key := by
    rw [List.map_append, List.map_cons, List.nodup_append] at nodup
    exact fun mem => nodup.2.2 _ mem _ List.mem_cons_self rfl
  rw [named x r here, below_split absent]
  exact ⟨rfl, by simp⟩

end Below

end Pages
