import Mathlib.Data.List.Forall2
import Mathlib.Data.List.Nodup

/-!
# Lists with a key

A list of records that is read and changed by a key: `get?` finds the first record with the key
and `amend` changes that record in place. When the change keeps the key, `get?_amend` and
`countP_amend` say all that a later read or count can see of it.
-/
namespace Keyed

variable {α κ : Type*} [DecidableEq κ] (key : α → κ)

/-- The first record with the key. -/
def get? (k : κ) (l : List α) : Option α :=
  l.find? fun a => key a = k

/-- Change the first record with the key. -/
def amend (k : κ) (g : α → α) : List α → List α
  | [] => []
  | a :: l => if key a = k then g a :: l else a :: amend k g l

/-- Write a record, in the place of the first one with its key. -/
def put (a : α) : List α → List α
  | [] => [a]
  | b :: l => if key b = key a then a :: l else b :: put a l

variable {key} {k k' : κ} {g : α → α} {l : List α} {a : α}

theorem key_of_get? (h : get? key k l = some a) : key a = k := by
  simpa using List.find?_some h

theorem mem_of_get? (h : get? key k l = some a) : a ∈ l :=
  List.mem_of_find?_eq_some h

/-- When no key occurs twice, every record is the one its key finds. -/
theorem get?_of_mem (unique : (l.map key).Nodup) (h : a ∈ l) : get? key (key a) l = some a := by
  induction l with
  | nil => simp at h
  | cons b l ih =>
    rw [List.map_cons, List.nodup_cons] at unique
    rcases List.mem_cons.mp h with rfl | h
    · simp [get?]
    · have other : key b ≠ key a := fun same => unique.1 (same ▸ List.mem_map_of_mem h)
      simpa [get?, other] using ih unique.2 h

/-- When no key occurs twice, the order of the records does not matter. -/
theorem get?_of_perm {m : List α} (unique : (l.map key).Nodup) (same : l.Perm m) :
    get? key k l = get? key k m := by
  cases found : get? key k l with
  | none =>
    refine (List.find?_eq_none.mpr fun a ha => ?_).symm
    exact List.find?_eq_none.mp found a (same.mem_iff.mpr ha)
  | some a =>
    obtain rfl := key_of_get? found
    have unique' := (same.map key).nodup_iff.mp unique
    exact (get?_of_mem unique' (same.mem_iff.mp (mem_of_get? found))).symm

theorem get?_map {g : α → α} (keeps : ∀ a, key (g a) = key a) :
    get? key k (l.map g) = (get? key k l).map g := by
  unfold get?
  rw [List.find?_map]
  refine congrArg (Option.map g) (congrArg (List.find? · l) ?_)
  funext a
  rw [Function.comp_apply, keeps]

theorem get?_eq_none : get? key k l = none ↔ k ∉ l.map key := by
  simp [get?]

theorem get?_append {m : List α} : get? key k (l ++ m) = (get? key k l).or (get? key k m) :=
  List.find?_append

/-- Without the records of a key, the others are found as before. -/
theorem get?_filter : get? key k' (l.filter (key · ≠ k)) =
    if k' = k then none else get? key k' l := by
  induction l with
  | nil => simp [get?]
  | cons a l ih =>
    unfold get? at ih ⊢
    by_cases gone : key a = k
    · rw [List.filter_cons_of_neg (by simpa using gone), ih]
      by_cases same : k' = k
      · simp [same]
      · have miss : ¬key a = k' := fun h => same (h.symm.trans gone)
        simp [same, miss]
    · rw [List.filter_cons_of_pos (by simpa using gone)]
      by_cases here : key a = k'
      · subst here
        simp [gone]
      · rw [List.find?_cons_of_neg (by simpa using here), ih,
          List.find?_cons_of_neg (by simpa using here)]

theorem get?_amend (keeps : ∀ a, key (g a) = key a) :
    get? key k' (amend key k g l) =
      if k' = k then (get? key k l).map g else get? key k' l := by
  induction l with
  | nil => simp [amend, get?]
  | cons a l ih =>
    unfold get? at ih ⊢
    unfold amend
    by_cases here : key a = k
    · by_cases same : k' = k
      · simp [here, same, keeps]
      · simp [here, same, keeps, Ne.symm same]
    · by_cases there : key a = k'
      · subst there
        simp [here]
      · simp [here, there, ih]

theorem map_key_amend (keeps : ∀ a, key (g a) = key a) :
    (amend key k g l).map key = l.map key := by
  induction l with
  | nil => rfl
  | cons a l ih =>
    unfold amend
    split <;> simp [keeps, ih]

theorem amend_amend {g' : α → α} (keeps : ∀ a, key (g a) = key a) :
    amend key k g' (amend key k g l) = amend key k (fun a => g' (g a)) l := by
  induction l with
  | nil => rfl
  | cons a l ih =>
    by_cases here : key a = k
    · simp [amend, here, keeps]
    · simp [amend, here, ih]

theorem length_amend : (amend key k g l).length = l.length := by
  induction l with
  | nil => rfl
  | cons a l ih =>
    unfold amend
    split <;> simp [ih]

theorem countP_amend {p : α → Bool} (h : get? key k l = some a) :
    (amend key k g l).countP p + (if p a then 1 else 0) =
      l.countP p + (if p (g a) then 1 else 0) := by
  induction l with
  | nil => simp [get?] at h
  | cons b l ih =>
    unfold get? at h ih
    unfold amend
    by_cases here : key b = k
    · obtain rfl : b = a := by simpa [here] using h
      simp only [here, if_true, List.countP_cons]
      omega
    · have rest := ih (by simpa [here] using h)
      simp only [here, if_false, List.countP_cons]
      omega

/-- A change that the test does not see. -/
theorem filter_amend {p : α → Bool}
    (unseen : ∀ a, get? key k l = some a → p a = false ∧ p (g a) = false) :
    (amend key k g l).filter p = l.filter p := by
  induction l with
  | nil => rfl
  | cons b l ih =>
    unfold get? at unseen ih
    unfold amend
    by_cases here : key b = k
    · obtain ⟨before, after⟩ := unseen b (by simp [here])
      simp [here, before, after]
    · simp only [here, if_false, List.filter_cons]
      rw [ih fun a ha => unseen a (by simpa [here] using ha)]

theorem map_amend {β : Type*} {f : α → β} (same : ∀ a, f (g a) = f a) :
    (amend key k g l).map f = l.map f := by
  induction l with
  | nil => rfl
  | cons b l ih =>
    unfold amend
    split <;> simp [same, ih]

/-- One record less. -/
theorem countP_filter_ne {p : α → Bool} (unique : (l.map key).Nodup)
    (h : get? key k l = some a) :
    (l.filter (key · ≠ k)).countP p + (if p a then 1 else 0) = l.countP p := by
  induction l with
  | nil => simp [get?] at h
  | cons b l ih =>
    rw [List.map_cons, List.nodup_cons] at unique
    unfold get? at h ih
    by_cases here : key b = k
    · obtain rfl : b = a := by simpa [here] using h
      have rest : l.filter (key · ≠ k) = l := by
        refine List.filter_eq_self.mpr fun c hc => ?_
        have other : key c ≠ k := fun same => unique.1 (here ▸ same ▸ List.mem_map_of_mem hc)
        simpa using other
      rw [List.filter_cons_of_neg (by simpa using here), rest, List.countP_cons]
    · have rest := ih unique.2 (by simpa [here] using h)
      rw [List.filter_cons_of_pos (by simpa using here), List.countP_cons, List.countP_cons]
      omega

/-- A search that the change does not decide otherwise stops at the same key. -/
theorem map_key_find?_amend {p : α → Bool} (keeps : ∀ a, key (g a) = key a)
    (same : ∀ a, get? key k l = some a → p (g a) = p a) :
    ((amend key k g l).find? p).map key = (l.find? p).map key := by
  induction l with
  | nil => rfl
  | cons b l ih =>
    unfold get? at same ih
    unfold amend
    by_cases here : key b = k
    · have hb : p (g b) = p b := same b (by simp [here])
      simp only [here, if_true, List.find?_cons, hb]
      cases p b <;> simp [keeps]
    · have rest := ih fun a ha => same a (by simpa [here] using ha)
      simp only [here, if_false, List.find?_cons]
      cases p b
      · exact rest
      · rfl

/-- Related to the records before it is what the change itself relates. -/
theorem forall₂_amend {R : α → α → Prop} (refl : ∀ a, R a a)
    (h : ∀ a, get? key k l = some a → R a (g a)) : List.Forall₂ R l (amend key k g l) := by
  induction l with
  | nil => exact .nil
  | cons b l ih =>
    unfold get? at h ih
    unfold amend
    by_cases here : key b = k
    · rw [if_pos here]
      exact .cons (h b (by simp [here])) (List.forall₂_same.mpr fun a _ => refl a)
    · rw [if_neg here]
      exact .cons (refl b) (ih fun a ha => h a (by simpa [here] using ha))

theorem forall_mem_amend {P : α → Prop} (all : ∀ a ∈ l, P a)
    (changed : ∀ a, get? key k l = some a → P (g a)) : ∀ a ∈ amend key k g l, P a := by
  induction l with
  | nil => exact all
  | cons b l ih =>
    unfold get? at changed ih
    rw [List.forall_mem_cons] at all
    unfold amend
    by_cases here : key b = k
    · rw [if_pos here, List.forall_mem_cons]
      exact ⟨changed b (by simp [here]), all.2⟩
    · rw [if_neg here, List.forall_mem_cons]
      exact ⟨all.1, ih all.2 fun a ha => changed a (by simpa [here] using ha)⟩

theorem mem_amend {b : α} (h : b ∈ amend key k g l) :
    b ∈ l ∨ ∃ a, get? key k l = some a ∧ b = g a := by
  refine forall_mem_amend (P := fun b => b ∈ l ∨ ∃ a, get? key k l = some a ∧ b = g a)
    (fun a ha => Or.inl ha) (fun a found => Or.inr ⟨a, found, rfl⟩) b h

/-- A record is still there, or it is the one that was changed. -/
theorem mem_amend_of_mem (h : a ∈ l) :
    a ∈ amend key k g l ∨ get? key k l = some a ∧ g a ∈ amend key k g l := by
  induction l with
  | nil => simp at h
  | cons b l ih =>
    unfold get? at ih ⊢
    unfold amend
    by_cases here : key b = k
    · rcases List.mem_cons.mp h with rfl | h
      · exact Or.inr (by simp [here])
      · exact Or.inl (by simp [here, h])
    · rcases List.mem_cons.mp h with rfl | h
      · exact Or.inl (by simp [here])
      · rcases ih h with kept | ⟨found, changed⟩
        · exact Or.inl (by simp [here, kept])
        · exact Or.inr (by simp [here, found, changed])

/-- Lists whose records are related one by one, with the same keys, find related records. -/
theorem get?_of_forall₂ {R : α → α → Prop} {m : List α} (h : List.Forall₂ R l m)
    (found : get? key k l = some a) (keys : ∀ a b, R a b → key b = key a) :
    ∃ b, get? key k m = some b ∧ R a b := by
  induction h with
  | nil => simp [get?] at found
  | @cons c d l m related rest ih =>
    unfold get? at found ih ⊢
    by_cases here : key c = k
    · obtain rfl : c = a := by simpa [here] using found
      exact ⟨d, by simp [keys c d related, here], related⟩
    · simpa [keys c d related, here] using ih (by simpa [here] using found)

theorem get?_put : get? key k (put key a l) = if k = key a then some a else get? key k l := by
  induction l with
  | nil =>
    by_cases same : k = key a
    · simp [put, get?, same]
    · simp [put, get?, same, Ne.symm same]
  | cons b l ih =>
    unfold get? at ih ⊢
    unfold put
    by_cases here : key b = key a
    · by_cases same : k = key a
      · simp [here, same]
      · simp [here, same, Ne.symm same]
    · by_cases there : key b = k
      · subst there
        simp [here]
      · rw [if_neg here, List.find?_cons_of_neg (by simpa using there), ih,
          List.find?_cons_of_neg (by simpa using there)]

theorem map_key_put : (put key a l).map key =
    if key a ∈ l.map key then l.map key else l.map key ++ [key a] := by
  induction l with
  | nil => simp [put]
  | cons b l ih =>
    unfold put
    by_cases here : key b = key a
    · simp [here]
    · rw [if_neg here, List.map_cons, ih, List.map_cons]
      by_cases known : key a ∈ l.map key
      · rw [if_pos known, if_pos (List.mem_cons_of_mem _ known)]
      · have new : key a ∉ key b :: l.map key := by
          rw [List.mem_cons, not_or]
          exact ⟨Ne.symm here, known⟩
        rw [if_neg known, if_neg new, List.cons_append]

theorem nodup_put (unique : (l.map key).Nodup) : ((put key a l).map key).Nodup := by
  rw [map_key_put]
  split
  · exact unique
  · rename_i new
    rw [← List.concat_eq_append]
    exact unique.concat new

theorem mem_of_mem_put {b : α} (h : b ∈ put key a l) : b = a ∨ b ∈ l := by
  induction l with
  | nil => exact Or.inl (List.mem_singleton.mp h)
  | cons c l ih =>
    unfold put at h
    split at h
    · exact (List.mem_cons.mp h).imp_right (List.mem_cons_of_mem _)
    · obtain rfl | h := List.mem_cons.mp h
      · exact Or.inr List.mem_cons_self
      · exact (ih h).imp_right (List.mem_cons_of_mem _)

/-- When no key occurs twice, the record takes the place of the one with its key. -/
theorem mem_put {b : α} (unique : (l.map key).Nodup) :
    b ∈ put key a l ↔ b = a ∨ b ∈ l ∧ key b ≠ key a := by
  constructor
  · intro h
    have found := get?_of_mem (nodup_put unique) h
    rw [get?_put] at found
    split at found
    · exact Or.inl (Option.some.inj found).symm
    · exact Or.inr ⟨mem_of_get? found, ‹_›⟩
  · rintro (rfl | ⟨mem, other⟩)
    · exact mem_of_get? (get?_put.trans (if_pos rfl))
    · refine mem_of_get? (get?_put.trans ((if_neg other).trans (get?_of_mem unique mem)))

end Keyed
