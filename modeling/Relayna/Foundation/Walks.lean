import Mathlib.Data.List.Infix

/-!
# Reading page after page

A reader follows the cursor of each page until a page has none. Where a cursor is the key of the
last element of a page, and leaves what comes after that element, the pages make up the list.
-/
namespace Pages

variable {α κ : Type*}

/-- What a reader is shown from a cursor on. No page fails. -/
inductive Walk (page : Option κ → Option (List α × Option κ)) : Option κ → List α → Prop
  | last {k : Option κ} {items : List α} (shown : page k = some (items, none)) :
      Walk page k items
  | more {k : Option κ} {items rest : List α} {next : κ} (shown : page k = some (items, some next))
      (tail : Walk page (some next) rest) : Walk page k (items ++ rest)

theorem Walk.unique {page : Option κ → Option (List α × Option κ)} {k : Option κ} {l l' : List α}
    (h : Walk page k l) (h' : Walk page k l') : l = l' := by
  induction h generalizing l' with
  | last shown =>
    cases h' with
    | last shown' =>
      rw [shown] at shown'
      exact congrArg Prod.fst (Option.some.inj shown')
    | more shown' _ =>
      rw [shown] at shown'
      cases congrArg Prod.snd (Option.some.inj shown')
  | more shown _ ih =>
    cases h' with
    | last shown' =>
      rw [shown] at shown'
      cases congrArg Prod.snd (Option.some.inj shown')
    | more shown' tail' =>
      rw [shown] at shown'
      cases Option.some.inj shown'
      rw [ih tail']

theorem Walk.isSome {page : Option κ → Option (List α × Option κ)} {k : Option κ} {l : List α}
    (h : Walk page k l) : (page k).isSome = true := by
  cases h with
  | last shown => rw [shown]; rfl
  | more shown _ => rw [shown]; rfl

/-- The first page of what is left, with the key of its last element when it is not the end. -/
def cut (key : α → κ) (size : Nat) (left : List α) : List α × Option κ :=
  (left.take size, if size < left.length then (left.take size).getLast?.map key else none)

theorem exists_split {l : List α} {n : Nat} (pos : 1 ≤ n) (h : n < l.length) :
    ∃ front last hidden, l = front ++ last :: hidden ∧ front.length + 1 = n ∧ hidden ≠ [] := by
  refine ⟨l.take (n - 1), l.get ⟨n - 1, by omega⟩, l.drop n, ?_, ?_, ?_⟩
  · have rest : l.drop (n - 1) = l.get ⟨n - 1, by omega⟩ :: l.drop n := by
      rw [List.drop_eq_getElem_cons (by omega), Nat.sub_add_cancel pos]
      rfl
    rw [← rest, List.take_append_drop]
  · rw [List.length_take]
    omega
  · rw [ne_eq, List.drop_eq_nil_iff]
    omega

section Cut

variable {key : α → κ} {size : Nat} {left : List α}

theorem cut_of_le (h : left.length ≤ size) : cut key size left = (left, none) := by
  rw [cut, List.take_of_length_le h, if_neg (by omega)]

theorem cut_split {front hidden : List α} {a : α} (full : front.length + 1 = size)
    (more : hidden ≠ []) :
    cut key size (front ++ a :: hidden) = (front ++ [a], some (key a)) := by
  have taken : (front ++ a :: hidden).take size = front ++ [a] := by
    have long : (front ++ [a]).length = size := by simpa using full
    rw [List.append_cons, ← long, List.take_left]
  have long : size < (front ++ a :: hidden).length := by
    have := List.length_pos_iff.mpr more
    rw [List.length_append, List.length_cons]
    omega
  rw [cut, taken, if_pos long, List.getLast?_concat, Option.map_some]

end Cut

/-- The pages make up the list, when each cursor leaves what comes after its element. -/
theorem walk_cut {page : Option κ → Option (List α × Option κ)} (key : α → κ) {size : Nat}
    (pos : 1 ≤ size) {whole : List α} (first : page none = some (cut key size whole))
    (next : ∀ above a rest, whole = above ++ a :: rest →
      page (some (key a)) = some (cut key size rest)) :
    Walk page none whole := by
  have walk (n : Nat) : ∀ (k : Option κ) (above left : List α), left.length = n →
      whole = above ++ left → page k = some (cut key size left) → Walk page k left := by
    induction n using Nat.strongRecOn with
    | _ n ih =>
      rintro k above left rfl split shown
      by_cases few : left.length ≤ size
      · rw [cut_of_le few] at shown
        exact .last shown
      · obtain ⟨front, a, hidden, rfl, full, more⟩ := exists_split pos (not_le.mp few)
        have split' : whole = (above ++ front) ++ a :: hidden := by
          rw [split, List.append_assoc]
        have shorter : hidden.length < (front ++ a :: hidden).length := by
          rw [List.length_append, List.length_cons]
          omega
        have tail := ih _ shorter (some (key a)) (above ++ front ++ [a]) hidden rfl
          (by rw [split', List.append_cons]) (next _ a hidden split')
        rw [cut_split full more] at shown
        rw [List.append_cons]
        exact .more shown tail
  exact walk _ none [] whole rfl rfl first

end Pages
