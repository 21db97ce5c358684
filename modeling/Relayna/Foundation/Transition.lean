import Mathlib.Logic.Function.Basic

/-!
# Partial deterministic machines and their runs

A machine answers a labelled step with the next state or refuses it. The scheduler, the
clock and a failing command are labels, so a statement about every list of labels is a
statement about every interleaving and every pattern of failures.

`Along` states what each step of a run meets in the state it is taken from. The rules
`invariant` and `invariant_along` turn a step lemma into a statement about whole runs.
-/
namespace Transition

/-- `next s l` is the state after the step `l`, or `none` when `s` refuses it. -/
structure Machine (State Label : Type*) where
  next : State → Label → Option State

namespace Machine

variable {State Label : Type*} (m : Machine State Label)

/-- Take the steps in order; `none` as soon as one of them is refused. -/
def exec : State → List Label → Option State
  | s, [] => some s
  | s, l :: ls => (m.next s l).bind fun t => exec t ls

/-- Every step of the run meets `ok` in the state it is taken from. -/
def Along (ok : State → Label → Prop) : State → List Label → Prop
  | _, [] => True
  | s, l :: ls => ok s l ∧ ∀ t, m.next s l = some t → Along ok t ls

theorem exec_cons (s : State) (l : Label) (ls : List Label) :
    m.exec s (l :: ls) = (m.next s l).bind fun t => m.exec t ls := rfl

theorem exec_append (s : State) (ls ks : List Label) :
    m.exec s (ls ++ ks) = (m.exec s ls).bind fun t => m.exec t ks := by
  induction ls generalizing s with
  | nil => rfl
  | cons l ls ih =>
    simp only [List.cons_append, exec_cons, Option.bind_assoc]
    congr 1
    funext t
    exact ih t

instance Along.decidable (ok : State → Label → Prop) [∀ s l, Decidable (ok s l)] :
    (s : State) → (ls : List Label) → Decidable (m.Along ok s ls)
  | _, [] => inferInstanceAs (Decidable True)
  | s, l :: ls =>
    match h : m.next s l with
    | none => decidable_of_iff (ok s l) (by simp [Along, h])
    | some t =>
      have := Along.decidable ok t ls
      decidable_of_iff (ok s l ∧ m.Along ok t ls) (by simp [Along, h])

variable {m}

theorem Along.cons {ok : State → Label → Prop} {s t : State} {l : Label} {ls : List Label}
    (hl : ok s l) (hs : m.next s l = some t) (rest : m.Along ok t ls) :
    m.Along ok s (l :: ls) := by
  refine ⟨hl, fun u hu => ?_⟩
  rw [hs] at hu
  exact Option.some.inj hu ▸ rest

/-- A state is reached through its neighbour. -/
theorem exists_exec_cons {P : State → Prop} {s u : State} {l : Label} (hs : m.next s l = some u)
    (h : ∃ ls t, m.exec u ls = some t ∧ P t) : ∃ ls t, m.exec s ls = some t ∧ P t := by
  obtain ⟨ls, t, ht, hP⟩ := h
  exact ⟨l :: ls, t, by rw [exec_cons, hs, Option.bind_some, ht], hP⟩

/-- A run goes on where another has ended. -/
theorem exists_exec_trans {P Q : State → Prop} {s : State}
    (h : ∃ ls t, m.exec s ls = some t ∧ P t)
    (then_ : ∀ t, P t → ∃ ls u, m.exec t ls = some u ∧ Q u) :
    ∃ ls u, m.exec s ls = some u ∧ Q u := by
  obtain ⟨ls, t, ht, hP⟩ := h
  obtain ⟨ks, u, hu, hQ⟩ := then_ t hP
  exact ⟨ls ++ ks, u, by rw [exec_append, ht, Option.bind_some, hu], hQ⟩

/-- A guard on the labels alone. -/
theorem Along.of_forall {ok : Label → Prop} {ls : List Label} (h : ∀ l ∈ ls, ok l) (s : State) :
    m.Along (fun _ l => ok l) s ls := by
  induction ls generalizing s with
  | nil => trivial
  | cons l ls ih =>
    exact ⟨h l List.mem_cons_self, fun t _ => ih (fun l hl => h l (List.mem_cons_of_mem _ hl)) t⟩

/-- What one guarded step preserves, every guarded run preserves. -/
theorem invariant_along {ok : State → Label → Prop} {I : State → Prop}
    (step : ∀ s l t, I s → ok s l → m.next s l = some t → I t) {s t : State} {ls : List Label}
    (start : I s) (along : m.Along ok s ls) (run : m.exec s ls = some t) : I t := by
  induction ls generalizing s with
  | nil => exact Option.some.inj run ▸ start
  | cons l ls ih =>
    obtain ⟨u, hu, rest⟩ := Option.bind_eq_some_iff.mp run
    exact ih (step s l u start along.1 hu) (along.2 u hu) rest

/-- What one step preserves, every run preserves. -/
theorem invariant {I : State → Prop}
    (step : ∀ s l t, I s → m.next s l = some t → I t) {s t : State} {ls : List Label}
    (start : I s) (run : m.exec s ls = some t) : I t := by
  induction ls generalizing s with
  | nil => exact Option.some.inj run ▸ start
  | cons l ls ih =>
    obtain ⟨u, hu, rest⟩ := Option.bind_eq_some_iff.mp run
    exact ih (step s l u start hu) rest

/-- A guarded run that keeps an invariant meets, step by step, whatever the invariant and the
guard imply. -/
theorem Along.of_invariant {ok good : State → Label → Prop} {I : State → Prop}
    (step : ∀ s l t, I s → ok s l → m.next s l = some t → I t)
    (here : ∀ s l, I s → ok s l → good s l) {s : State} {ls : List Label} (start : I s)
    (along : m.Along ok s ls) : m.Along good s ls := by
  induction ls generalizing s with
  | nil => trivial
  | cons l ls ih =>
    exact ⟨here s l start along.1, fun t ht => ih (step s l t start along.1 ht) (along.2 t ht)⟩

theorem Along.of_append {ok : State → Label → Prop} {s t : State} {ls ks : List Label}
    (along : m.Along ok s (ls ++ ks)) (run : m.exec s ls = some t) :
    m.Along ok s ls ∧ m.Along ok t ks := by
  induction ls generalizing s with
  | nil => exact ⟨trivial, Option.some.inj run ▸ along⟩
  | cons l ls ih =>
    obtain ⟨u, hu, rest⟩ := Option.bind_eq_some_iff.mp run
    obtain ⟨first, last⟩ := ih (along.2 u hu) rest
    exact ⟨.cons along.1 hu first, last⟩

theorem Along.and {ok ok' : State → Label → Prop} {s : State} {ls : List Label}
    (along : m.Along ok s ls) (along' : m.Along ok' s ls) :
    m.Along (fun s l => ok s l ∧ ok' s l) s ls := by
  induction ls generalizing s with
  | nil => trivial
  | cons l ls ih =>
    exact ⟨⟨along.1, along'.1⟩, fun t ht => ih (along.2 t ht) (along'.2 t ht)⟩

end Machine

/-- Threads are numbered and `started n` is what the `n`-th is at. After one of them has moved,
whatever is at `m` is the one that moved or was there before. -/
theorem update_some_cases {α : Type*} {started : Nat → Option α} {n m : Nat} {a b : α}
    (h : Function.update started n (some a) m = some b) :
    (m = n ∧ b = a) ∨ (m ≠ n ∧ started m = some b) := by
  by_cases hm : m = n
  · subst hm
    rw [Function.update_self] at h
    exact Or.inl ⟨rfl, (Option.some.inj h).symm⟩
  · rw [Function.update_of_ne hm] at h
    exact Or.inr ⟨hm, h⟩

/-- The same for threads that are listed. -/
theorem set_some_cases {α : Type*} {l : List α} {n m : Nat} {a b : α}
    (h : (l.set n a)[m]? = some b) : (m = n ∧ b = a) ∨ (m ≠ n ∧ l[m]? = some b) := by
  by_cases hm : n = m
  · subst hm
    rw [List.getElem?_set_self'] at h
    obtain ⟨c, -, hc⟩ := Option.map_eq_some_iff.mp h
    exact Or.inl ⟨rfl, hc.symm⟩
  · rw [List.getElem?_set_ne hm] at h
    exact Or.inr ⟨fun e => hm e.symm, h⟩

/-- A thread has been added at the end. -/
theorem append_some_cases {α : Type*} {l : List α} {m : Nat} {a b : α}
    (h : (l ++ [a])[m]? = some b) : l[m]? = some b ∨ b = a := by
  rw [List.getElem?_append] at h
  split at h
  · exact Or.inl h
  · exact Or.inr (by simpa using List.mem_of_getElem? h)

/-- Threads are listed and one of them moves or leaves. -/
theorem exists_split {α : Type*} {threads : List α} {i : Nat} {a : α}
    (h : threads[i]? = some a) :
    ∃ before after, threads = before ++ a :: after ∧ threads.eraseIdx i = before ++ after ∧
      ∀ b, threads.set i b = before ++ b :: after := by
  induction threads generalizing i with
  | nil => simp at h
  | cons c threads ih =>
    cases i with
    | zero =>
      obtain rfl : c = a := by simpa using h
      exact ⟨[], threads, rfl, rfl, fun b => rfl⟩
    | succ i =>
      obtain ⟨before, after, rfl, erased, moved⟩ := ih (by simpa using h)
      refine ⟨c :: before, after, rfl, ?_, fun b => ?_⟩
      · rw [List.eraseIdx_cons_succ, erased, List.cons_append]
      · rw [List.set_cons_succ, moved, List.cons_append]

end Transition
