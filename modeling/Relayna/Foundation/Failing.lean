import Mathlib.Data.List.Forall2
import Mathlib.Data.List.Induction

/-!
# Loops that may fail

What is known when a computation in `Except` has come to its end: every part of it has. A loop
over a list has one rule for each of its forms: `foldlM` keeps an invariant of the items that are
done, `forM` has passed every item, `mapM` relates every item to its result. `Planned` says exactly
when a loop ends as planned, for one whose other endings can be told apart.
-/
namespace Failing

variable {α β ε : Type}

theorem bind_ok {x : Except ε α} {f : α → Except ε β} {b : β} :
    x >>= f = .ok b ↔ ∃ a, x = .ok a ∧ f a = .ok b := by
  cases x <;> simp [bind, Except.bind]

theorem bind_error {x : Except ε α} {f : α → Except ε β} {e : ε} :
    x >>= f = .error e ↔ x = .error e ∨ ∃ a, x = .ok a ∧ f a = .error e := by
  cases x <;> simp [bind, Except.bind]

theorem map_ok {x : Except ε α} {f : α → β} {b : β} :
    x.map f = .ok b ↔ ∃ a, x = .ok a ∧ f a = b := by
  cases x <;> simp [Except.map]

theorem mapError_ok {ε' : Type} {x : Except ε α} {f : ε → ε'} {a : α} :
    x.mapError f = .ok a ↔ x = .ok a := by
  cases x <;> simp [Except.mapError]

theorem map_ok_iff {x : Except ε α} {f : α → β} : (∃ b, x.map f = .ok b) ↔ ∃ a, x = .ok a := by
  cases x <;> simp [Except.map]

theorem map_error {x : Except ε α} {f : α → β} {e : ε} : x.map f = .error e ↔ x = .error e := by
  cases x <;> simp [Except.map]

theorem mapError_error {ε' : Type} {x : Except ε α} {f : ε → ε'} {e : ε'} :
    x.mapError f = .error e ↔ ∃ e', x = .error e' ∧ f e' = e := by
  cases x <;> simp [Except.mapError]

/-- A result with a property that can be evaluated. -/
theorem ok_and_of_any {x : Except ε α} {p : α → Prop} [DecidablePred p]
    (h : x.toOption.any (p ·) = true) : ∃ a, x = .ok a ∧ p a := by
  cases x with
  | error e => cases h
  | ok a => exact ⟨a, rfl, of_decide_eq_true h⟩

/-- What can only fail in one way has not failed in this way exactly if it has not failed. -/
theorem ne_error_iff {x : Except ε α} {bad : ε} (only : ∀ e, x = .error e → e = bad) :
    x ≠ .error bad ↔ ∃ a, x = .ok a := by
  cases x with
  | ok a => simp
  | error e => simp [only e rfl]

/-- What holds at the start, and is kept from the items that are done to one item more, holds
of the whole list at the end. -/
theorem foldlM_ok {f : β → α → Except ε β} {I : List α → β → Prop}
    (step : ∀ {done b a b'}, I done b → f b a = .ok b' → I (done ++ [a]) b')
    {l : List α} {b b' : β} (start : I [] b) (h : l.foldlM f b = .ok b') : I l b' := by
  induction l using List.reverseRecOn generalizing b' with
  | nil =>
    obtain rfl := Except.ok.inj h
    exact start
  | append_singleton done a ih =>
    rw [List.foldlM_append] at h
    obtain ⟨c, hc, h⟩ := bind_ok.mp h
    rw [List.foldlM_cons] at h
    obtain ⟨d, hd, h⟩ := bind_ok.mp h
    obtain rfl := Except.ok.inj h
    exact step (ih hc) hd

theorem forM_ok_iff {f : α → Except ε Unit} {l : List α} :
    l.forM f = .ok () ↔ ∀ a ∈ l, f a = .ok () := by
  induction l with
  | nil => simp [pure, Except.pure]
  | cons a l ih =>
    rw [show (a :: l).forM f = f a >>= fun _ => l.forM f from rfl, bind_ok, List.forall_mem_cons,
      ← ih]
    exact ⟨fun ⟨_, ha, rest⟩ => ⟨ha, rest⟩, fun ⟨ha, rest⟩ => ⟨(), ha, rest⟩⟩

theorem mapM_ok {f : α → Except ε β} {l : List α} {ys : List β}
    (h : l.mapM f = .ok ys) : List.Forall₂ (fun x y => f x = .ok y) l ys := by
  induction l generalizing ys with
  | nil =>
    obtain rfl := Except.ok.inj h
    exact .nil
  | cons x l ih =>
    rw [List.mapM_cons] at h
    obtain ⟨y, hy, h⟩ := bind_ok.mp h
    obtain ⟨zs, hz, h⟩ := bind_ok.mp h
    obtain rfl := Except.ok.inj h
    exact .cons hy (ih hz)

theorem exists_of_forall₂ {R : α → β → Prop} {xs : List α} {ys : List β}
    (h : List.Forall₂ R xs ys) {y : β} (hy : y ∈ ys) : ∃ x ∈ xs, R x y := by
  induction h with
  | nil => cases hy
  | @cons x y' xs ys hr _ ih =>
    obtain rfl | hy := List.mem_cons.mp hy
    · exact ⟨x, List.mem_cons_self, hr⟩
    · obtain ⟨x', hx, hr⟩ := ih hy
      exact ⟨x', List.mem_cons_of_mem _ hx, hr⟩

theorem map_of_mapM {γ : Type} {f : α → Except ε β} {g : β → γ} {g' : α → γ} {l : List α}
    {ys : List β} (h : l.mapM f = .ok ys) (same : ∀ {a b}, f a = .ok b → g b = g' a) :
    ys.map g = l.map g' := by
  have related := mapM_ok h
  clear h
  induction related with
  | nil => rfl
  | cons made _ ih => rw [List.map_cons, List.map_cons, same made, ih]

theorem mapM_eq_map {f : α → Except ε β} {g : α → β} {l : List α}
    (h : ∀ a ∈ l, f a = .ok (g a)) : l.mapM f = .ok (l.map g) := by
  induction l with
  | nil => rfl
  | cons a l ih =>
    rw [List.forall_mem_cons] at h
    rw [List.mapM_cons, h.1, ih h.2]
    rfl

theorem mapM_total {f : α → Except ε β} {l : List α} (total : ∀ a ∈ l, ∃ b, f a = .ok b) :
    ∃ ys, l.mapM f = .ok ys := by
  induction l with
  | nil => exact ⟨[], rfl⟩
  | cons x l ih =>
    rw [List.forall_mem_cons] at total
    obtain ⟨⟨y, hy⟩, rest⟩ := total
    obtain ⟨ys, hys⟩ := ih rest
    refine ⟨y :: ys, ?_⟩
    rw [List.mapM_cons, hy, hys]
    rfl

theorem mapM_ok_iff {f : α → Except ε β} {l : List α} :
    (∃ ys, l.mapM f = .ok ys) ↔ ∀ a ∈ l, ∃ b, f a = .ok b := by
  refine ⟨?_, mapM_total⟩
  rintro ⟨ys, h⟩
  have related := mapM_ok h
  clear h
  induction related with
  | nil => exact fun a mem => absurd mem List.not_mem_nil
  | cons hr _ ih => exact List.forall_mem_cons.mpr ⟨⟨_, hr⟩, ih⟩

/-- A loop that fails has failed over one of its items. -/
theorem mapM_error {f : α → Except ε β} {l : List α} {e : ε} (h : l.mapM f = .error e) :
    ∃ a ∈ l, f a = .error e := by
  induction l with
  | nil => cases h
  | cons x l ih =>
    rw [List.mapM_cons] at h
    cases first : f x with
    | error e' =>
      rw [first] at h
      obtain rfl := Except.error.inj h
      exact ⟨x, List.mem_cons_self, first⟩
    | ok y =>
      rw [first] at h
      cases rest : l.mapM f with
      | error e' =>
        rw [rest] at h
        obtain rfl := Except.error.inj h
        obtain ⟨a, mem, failed⟩ := ih rest
        exact ⟨a, List.mem_cons_of_mem _ mem, failed⟩
      | ok ys =>
        rw [rest] at h
        cases h

/-- A search whose test never fails is a search. -/
theorem findM?_map {γ : Type} {f : γ → α} {p : α → Except ε Bool} {q : γ → Bool} {l : List γ}
    (h : ∀ c ∈ l, p (f c) = .ok (q c)) : (l.map f).findM? p = .ok ((l.find? q).map f) := by
  induction l with
  | nil => rfl
  | cons c l ih =>
    have rest := ih fun d hd => h d (List.mem_cons_of_mem _ hd)
    simp only [List.map_cons, List.findM?, h c List.mem_cons_self, List.find?_cons, bind,
      Except.bind]
    cases q c
    · exact rest
    · rfl

/-! ## Filters whose test may fail -/

theorem filterAuxM_reverse (f : α → Option Bool) (l kept : List α) :
    (l.filterAuxM f kept).map List.reverse = (l.filterM f).map (kept.reverse ++ ·) := by
  have run (l kept : List α) : l.filterAuxM f kept = (l.filterAuxM f []).map (· ++ kept) := by
    induction l generalizing kept with
    | nil => rfl
    | cons a l ih =>
      cases test : f a with
      | none => simp [List.filterAuxM, test]
      | some b =>
        simp only [List.filterAuxM, test, Option.bind_eq_bind, Option.bind_some]
        rw [ih, ih (cond b [a] []), Option.map_map]
        cases b <;> simp [Function.comp_def]
  rw [run, Option.map_map]
  simp [List.filterM, Option.map_eq_bind, Option.bind_assoc, Function.comp_def]

theorem filterM_cons (f : α → Option Bool) (a : α) (l : List α) :
    (a :: l).filterM f = (f a).bind fun b => (l.filterM f).map (cond b [a] [] ++ ·) := by
  cases test : f a with
  | none => simp [List.filterM, List.filterAuxM, test]
  | some b =>
    have rest := filterAuxM_reverse f l (cond b [a] [])
    have front : (cond b [a] []).reverse = cond b [a] [] := by cases b <;> rfl
    rw [front] at rest
    rw [Option.bind_some, ← rest]
    simp [List.filterM, List.filterAuxM, test, Option.map_eq_bind, Function.comp_def]

theorem filterM_eq_filter {f : α → Option Bool} {p : α → Bool} {l : List α}
    (h : ∀ a ∈ l, f a = some (p a)) : l.filterM f = some (l.filter p) := by
  induction l with
  | nil => rfl
  | cons a l ih =>
    rw [List.forall_mem_cons] at h
    rw [filterM_cons, h.1, ih h.2, Option.bind_some, Option.map_some, List.filter_cons]
    cases p a <;> rfl

/-- What is kept has passed the test. -/
theorem of_mem_filterM {f : α → Option Bool} {l kept : List α} (h : l.filterM f = some kept) :
    ∀ a ∈ kept, f a = some true := by
  induction l generalizing kept with
  | nil =>
    obtain rfl := Option.some.inj h
    exact fun a mem => absurd mem List.not_mem_nil
  | cons a l ih =>
    rw [filterM_cons] at h
    obtain ⟨b, test, h⟩ := Option.bind_eq_some_iff.mp h
    obtain ⟨rest, run, rfl⟩ := Option.map_eq_some_iff.mp h
    cases b with
    | false => exact ih run
    | true => exact List.forall_mem_cons.mpr ⟨test, ih run⟩

/-! ## Loops that go on as planned or are spoiled -/

/-- Every item is good after those that are done, newest first. -/
def Rounds (good : List α → α → Prop) : List α → List α → Prop
  | _, [] => True
  | done, a :: l => good done a ∧ Rounds good (a :: done) l

theorem rounds_iff {good : List α → α → Prop} {done l : List α} :
    Rounds good done l ↔ ∀ u a v, l = u ++ a :: v → good (u.reverse ++ done) a := by
  induction l generalizing done with
  | nil => simp [Rounds]
  | cons b l ih =>
    rw [Rounds, ih]
    constructor
    · rintro ⟨here, rest⟩ u a v split
      cases u with
      | nil =>
        obtain ⟨rfl, -⟩ := List.cons.inj split
        exact here
      | cons x u =>
        obtain ⟨rfl, tail⟩ := List.cons.inj split
        simpa using rest u a v tail
    · intro all
      refine ⟨all [] b l rfl, fun u a v split => ?_⟩
      simpa using all (b :: u) a v (by rw [split, List.cons_append])

theorem rounds_and {p q : List α → α → Prop} {done l : List α} :
    Rounds (fun done a => p done a ∧ q done a) done l ↔ Rounds p done l ∧ Rounds q done l := by
  induction l generalizing done with
  | nil => simp [Rounds]
  | cons a l ih =>
    simp only [Rounds, ih]
    exact and_and_and_comm

/-- What is kept exactly by the good items holds of the whole list when every item is good. -/
theorem rounds_of_step {good : List α → α → Prop} {P : List α → Prop} {done l : List α}
    (step : ∀ done a, P (a :: done) ↔ P done ∧ good done a) :
    P (l.reverse ++ done) ↔ P done ∧ Rounds good done l := by
  induction l generalizing done with
  | nil => simp [Rounds]
  | cons a l ih => rw [List.reverse_cons, List.append_assoc, List.singleton_append, ih, step,
      Rounds, and_assoc]

/-- A round over a good item keeps the invariant. One over another item fails or spoils the state,
and what is spoiled stays so. -/
structure Planned (f : β → α → Except ε β) (I : List α → β → Prop) (Bad : β → Prop)
    (good : List α → α → Prop) : Prop where
  round : ∀ {done b a}, I done b → good done a → ∃ b', f b a = .ok b' ∧ I (a :: done) b'
  spoils : ∀ {done b a b'}, I done b → ¬good done a → f b a = .ok b' → Bad b'
  stays : ∀ {b a b'}, Bad b → f b a = .ok b' → Bad b'

namespace Planned

variable {f : β → α → Except ε β} {I : List α → β → Prop} {Bad : β → Prop}
  {good : List α → α → Prop} {done l : List α} {b b' : β}

theorem goes_on (plan : Planned f I Bad good) (start : I done b) (all : Rounds good done l) :
    ∃ b', l.foldlM f b = .ok b' ∧ I (l.reverse ++ done) b' := by
  induction l generalizing done b with
  | nil => exact ⟨b, rfl, start⟩
  | cons a l ih =>
    obtain ⟨c, hc, next⟩ := plan.round start all.1
    obtain ⟨d, hd, last⟩ := ih next all.2
    refine ⟨d, ?_, by simpa using last⟩
    rw [List.foldlM_cons]
    exact bind_ok.mpr ⟨c, hc, hd⟩

theorem stays_spoiled (plan : Planned f I Bad good) (bad : Bad b)
    (h : l.foldlM f b = .ok b') : Bad b' := by
  induction l generalizing b with
  | nil => exact Except.ok.inj h ▸ bad
  | cons a l ih =>
    rw [List.foldlM_cons] at h
    obtain ⟨c, hc, h⟩ := bind_ok.mp h
    exact ih (plan.stays bad hc) h

theorem spoiled (plan : Planned f I Bad good) (start : I done b) (not_all : ¬Rounds good done l)
    (h : l.foldlM f b = .ok b') : Bad b' := by
  induction l generalizing done b with
  | nil => exact absurd trivial not_all
  | cons a l ih =>
    rw [List.foldlM_cons] at h
    obtain ⟨c, hc, h⟩ := bind_ok.mp h
    by_cases here : good done a
    · obtain ⟨c', hc', next⟩ := plan.round start here
      obtain rfl := Except.ok.inj (hc.symm.trans hc')
      exact ih next (fun rest => not_all ⟨here, rest⟩) h
    · exact plan.stays_spoiled (plan.spoils start here hc) h

end Planned

end Failing
