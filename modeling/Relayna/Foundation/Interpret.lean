import Relayna.Foundation.Await

/-!
# Programs whose operations are programs themselves

`interpret` puts a program for each operation in the place of the operation. A run of the result
is a run of the original in which every event stands for a segment: the run of the program that
serves it. So what a judgement about the original says of its events can be read off the segments.

`Avoids` says of a program which operations it never awaits. Whatever only these operations can
change is kept by such a program, on a return and on a raise.
-/
namespace Await

open Proc

variable {I J : Interface} {α β : Type}

/-- Serve each operation by a program that hands back the answer. -/
def Proc.interpret (serve : (op : I.Op) → Proc J (Except I.Exc (I.Reply op))) :
    Proc I α → Proc J (Except I.Exc α)
  | .ret a => .ret (.ok a)
  | .raise e => .ret (.error e)
  | .await op k => (serve op).bind fun answer => (k answer).interpret serve

section Interpret

variable {serve : (op : I.Op) → Proc J (Except I.Exc (I.Reply op))}

/-- What the events of a run stand for, one after the other. -/
inductive Segments (serve : (op : I.Op) → Proc J (Except I.Exc (I.Reply op))) :
    List (Event I) → List (Event J) → Prop where
  | nil : Segments serve [] []
  | snoc {t : List (Event I)} {es last : List (Event J)} {op : I.Op}
      {answer : Except I.Exc (I.Reply op)} :
      Segments serve t es → Run (serve op) last (.ok answer) →
        Segments serve (t ++ [⟨op, answer⟩]) (es ++ last)

theorem Segments.nil_iff {es : List (Event J)} : Segments serve [] es ↔ es = [] := by
  constructor
  · intro h
    generalize ht : ([] : List (Event I)) = t at h
    cases h with
    | nil => rfl
    | snoc => simp at ht
  · rintro rfl
    exact .nil

theorem Segments.snoc_iff {t : List (Event I)} {op : I.Op} {answer : Except I.Exc (I.Reply op)}
    {es : List (Event J)} :
    Segments serve (t ++ [⟨op, answer⟩]) es ↔
      ∃ first last, es = first ++ last ∧ Segments serve t first ∧
        Run (serve op) last (.ok answer) := by
  constructor
  · intro h
    generalize ht : t ++ [(⟨op, answer⟩ : Event I)] = t' at h
    cases h with
    | nil => simp at ht
    | @snoc t' es' last op' answer' segments run =>
      obtain ⟨rfl, same⟩ := List.append_inj' ht rfl
      obtain ⟨rfl, same⟩ := Event.mk.inj (List.cons.inj same).1
      obtain rfl := eq_of_heq same
      exact ⟨es', last, rfl, segments, run⟩
  · rintro ⟨first, last, rfl, segments, run⟩
    exact segments.snoc run

theorem run_interpret (total : ∀ op es e, ¬Run (serve op) es (.error e)) {x : Proc I α}
    {past : List (Event I)} {es before : List (Event J)} {res : Except J.Exc (Except I.Exc α)}
    (segments : Segments serve past before) (h : Run (x.interpret serve) es res) :
    ∃ t r, res = .ok r ∧ Run x t r ∧ Segments serve (past ++ t) (before ++ es) := by
  induction x generalizing past before es with
  | ret a =>
    obtain ⟨rfl, rfl⟩ := run_pure_iff.mp h
    refine ⟨[], .ok a, rfl, .ret a, ?_⟩
    simpa using segments
  | raise e =>
    obtain ⟨rfl, rfl⟩ := run_pure_iff.mp h
    refine ⟨[], .error e, rfl, .raise e, ?_⟩
    simpa using segments
  | await op k ih =>
    obtain ⟨e, -, hs⟩ | ⟨answer, first, rest, rfl, hs, hk⟩ := run_bind h
    · exact absurd hs (total op _ e)
    · obtain ⟨t, r, rfl, hx, hseg⟩ := ih answer (segments.snoc hs) hk
      refine ⟨⟨op, answer⟩ :: t, r, rfl, .await answer hx, ?_⟩
      simpa using hseg

theorem run_of_interpret (total : ∀ op es e, ¬Run (serve op) es (.error e)) {x : Proc I α}
    {es : List (Event J)} {res : Except J.Exc (Except I.Exc α)}
    (h : Run (x.interpret serve) es res) :
    ∃ t r, res = .ok r ∧ Run x t r ∧ Segments serve t es :=
  run_interpret total .nil h

end Interpret

/-- The program awaits no operation in `bad`. -/
def Avoids (bad : I.Op → Bool) (x : Proc I α) : Prop :=
  ∀ P : List (Event I) → Prop, (∀ t e, P t → bad e.op = false → P (t ++ [e])) →
    Triple P x (fun _ => P) (fun _ => P)

namespace Avoids

variable {bad bad' : I.Op → Bool} {x : Proc I α}

theorem mono (h : Avoids bad x) (fewer : ∀ op, bad op = false → bad' op = false) :
    Avoids bad' x :=
  fun P stable => h P fun t e ht he => stable t e ht (fewer e.op he)

theorem pure (a : α) : Avoids bad (Pure.pure a : Proc I α) := fun _ _ => .pure fun _ => id

theorem raise (e : I.Exc) : Avoids bad (.raise e : Proc I α) := fun _ _ => .raise fun _ => id

theorem perform {op : I.Op} (good : bad op = false) : Avoids bad (Proc.perform op) :=
  fun _ stable => .perform (fun t _ h => stable t _ h good) fun t _ h => stable t _ h good

theorem bind {f : α → Proc I β} (hx : Avoids bad x) (hf : ∀ a, Avoids bad (f a)) :
    Avoids bad (x >>= f) :=
  fun P stable => .bind (hx P stable) fun a => hf a P stable

theorem attempt (hx : Avoids bad x) : Avoids bad x.attempt := by
  intro P stable
  refine (hx P stable).attempt.conseq (fun _ => id) (fun r t h => ?_) fun _ _ => id
  cases r with
  | ok a => exact h
  | error e => exact h

theorem tryCatch {handler : I.Exc → Proc I α} (hx : Avoids bad x)
    (hh : ∀ e, Avoids bad (handler e)) : Avoids bad (x.tryCatch handler) :=
  fun P stable => .tryCatch (hx P stable) fun e => hh e P stable

theorem tryFinally {final : Except I.Exc α → Proc I Unit} (hx : Avoids bad x)
    (hf : ∀ r, Avoids bad (final r)) : Avoids bad (x.tryFinally final) :=
  fun P stable => .tryFinally (hx P stable) (fun a => hf (.ok a) P stable)
    fun e => hf (.error e) P stable

end Avoids

end Await
