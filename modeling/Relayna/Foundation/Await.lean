import Mathlib.Data.List.Basic

/-!
# Programs that await operations

A coroutine is the finite tree of what it does next: it returns, it raises, or it awaits an
operation and goes on with the answer, which is a value or an exception. A run is one path
through the tree, so a statement about every run is a statement about every choice of which
awaited operations succeed and which raise.

`attempt` turns the ending of a program into a value; `tryCatch` and `tryFinally` are written
with it. `Triple` is the judgement by which programs are verified, with a rule for each of
them.
-/
namespace Await

/-- The operations a program may await, what each of them answers and what it may raise. -/
structure Interface where
  Op : Type
  Reply : Op → Type
  Exc : Type

inductive Proc (I : Interface) (α : Type) where
  | ret (a : α)
  | raise (e : I.Exc)
  | await (op : I.Op) (k : Except I.Exc (I.Reply op) → Proc I α)

/-- An operation that has been awaited, with its answer. -/
structure Event (I : Interface) where
  op : I.Op
  answer : Except I.Exc (I.Reply op)

variable {I : Interface} {α β : Type}

/-- The events of one path, in order, and how it ends. -/
inductive Run : Proc I α → List (Event I) → Except I.Exc α → Prop where
  | ret (a : α) : Run (.ret a) [] (.ok a)
  | raise (e : I.Exc) : Run (.raise e) [] (.error e)
  | await {op : I.Op} {k : Except I.Exc (I.Reply op) → Proc I α} {es : List (Event I)}
      {res : Except I.Exc α} (answer : Except I.Exc (I.Reply op)) :
      Run (k answer) es res → Run (.await op k) (⟨op, answer⟩ :: es) res

namespace Proc

def bind : Proc I α → (α → Proc I β) → Proc I β
  | .ret a, f => f a
  | .raise e, _ => .raise e
  | .await op k, f => .await op fun answer => (k answer).bind f

instance : Monad (Proc I) where
  pure := .ret
  bind := bind

/-- Await the operation and raise what it raises. -/
def perform (op : I.Op) : Proc I (I.Reply op) :=
  .await op fun
    | .ok a => .ret a
    | .error e => .raise e

/-- The ending of the program as a value. -/
def attempt : Proc I α → Proc I (Except I.Exc α)
  | .ret a => .ret (.ok a)
  | .raise e => .ret (.error e)
  | .await op k => .await op fun answer => (k answer).attempt

def ofExcept : Except I.Exc α → Proc I α
  | .ok a => .ret a
  | .error e => .raise e

def tryCatch (x : Proc I α) (handler : I.Exc → Proc I α) : Proc I α :=
  x.attempt.bind fun
    | .ok a => .ret a
    | .error e => handler e

/-- What `final` raises replaces the ending of `x`. -/
def tryFinally (x : Proc I α) (final : Except I.Exc α → Proc I Unit) : Proc I α :=
  x.attempt.bind fun ending => (final ending).bind fun _ => ofExcept ending

/-- The path on which the operations answer as `world` does. -/
def exec (world : (op : I.Op) → Except I.Exc (I.Reply op)) :
    Proc I α → List (Event I) × Except I.Exc α
  | .ret a => ([], .ok a)
  | .raise e => ([], .error e)
  | .await op k =>
    let rest := (k (world op)).exec world
    (⟨op, world op⟩ :: rest.1, rest.2)

end Proc

open Proc

section Runs

variable {es : List (Event I)}

@[simp] theorem run_pure_iff {a : α} {res : Except I.Exc α} :
    Run (pure a : Proc I α) es res ↔ es = [] ∧ res = .ok a := by
  constructor
  · intro h
    cases h
    exact ⟨rfl, rfl⟩
  · rintro ⟨rfl, rfl⟩
    exact .ret a

@[simp] theorem run_raise_iff {e : I.Exc} {res : Except I.Exc α} :
    Run (.raise e : Proc I α) es res ↔ es = [] ∧ res = .error e := by
  constructor
  · intro h
    cases h
    exact ⟨rfl, rfl⟩
  · rintro ⟨rfl, rfl⟩
    exact .raise e

theorem run_perform_iff {op : I.Op} {res : Except I.Exc (I.Reply op)} :
    Run (perform op) es res ↔ es = [⟨op, res⟩] := by
  constructor
  · intro h
    cases h with
    | await answer h =>
      cases answer with
      | ok a =>
        obtain ⟨rfl, rfl⟩ := run_pure_iff.mp h
        rfl
      | error e =>
        obtain ⟨rfl, rfl⟩ := run_raise_iff.mp h
        rfl
  · rintro rfl
    refine .await res ?_
    cases res with
    | ok a => exact .ret a
    | error e => exact .raise e

/-- A sequence ends in its first part or passes through it. -/
theorem run_bind {x : Proc I α} {f : α → Proc I β} {res : Except I.Exc β}
    (h : Run (x >>= f) es res) :
    (∃ e, res = .error e ∧ Run x es (.error e)) ∨
      ∃ a first rest, es = first ++ rest ∧ Run x first (.ok a) ∧ Run (f a) rest res := by
  induction x generalizing es with
  | ret a => exact Or.inr ⟨a, [], es, rfl, .ret a, h⟩
  | raise e =>
    obtain ⟨rfl, rfl⟩ := run_raise_iff.mp h
    exact Or.inl ⟨e, rfl, .raise e⟩
  | await op k ih =>
    cases h with
    | await answer h =>
      obtain ⟨e, rfl, hx⟩ | ⟨a, first, rest, rfl, hx, hf⟩ := ih answer h
      · exact Or.inl ⟨e, rfl, .await answer hx⟩
      · exact Or.inr ⟨a, _, rest, rfl, .await answer hx, hf⟩

theorem run_attempt {x : Proc I α} {res : Except I.Exc (Except I.Exc α)}
    (h : Run x.attempt es res) : ∃ r, res = .ok r ∧ Run x es r := by
  induction x generalizing es with
  | ret a =>
    obtain ⟨rfl, rfl⟩ := run_pure_iff.mp h
    exact ⟨.ok a, rfl, .ret a⟩
  | raise e =>
    obtain ⟨rfl, rfl⟩ := run_pure_iff.mp h
    exact ⟨.error e, rfl, .raise e⟩
  | await op k ih =>
    cases h with
    | await answer h =>
      obtain ⟨r, rfl, hx⟩ := ih answer h
      exact ⟨r, rfl, .await answer hx⟩

theorem Run.bind {x : Proc I α} {f : α → Proc I β} {first rest : List (Event I)} {a : α}
    {res : Except I.Exc β} (hx : Run x first (.ok a)) (hf : Run (f a) rest res) :
    Run (x >>= f) (first ++ rest) res := by
  generalize ended : (Except.ok a : Except I.Exc α) = r at hx
  induction hx with
  | ret b =>
    cases ended
    exact hf
  | raise e => cases ended
  | await answer _ ih => exact .await answer (ih ended)

/-- The outcome of a body, unless its `finally` block raises. -/
def afterFinally {ε : Type} (outcome : Except ε α) : Except ε Unit → Except ε α
  | .ok _ => outcome
  | .error exc => .error exc

theorem run_tryFinally {x : Proc I α} {final : Except I.Exc α → Proc I Unit}
    {res : Except I.Exc α} (h : Run (x.tryFinally final) es res) :
    ∃ first rest outcome ending, es = first ++ rest ∧ Run x first outcome ∧
      Run (final outcome) rest ending ∧ res = afterFinally outcome ending := by
  obtain ⟨e, rfl, hr⟩ | ⟨outcome, first, rest, rfl, hr, hf⟩ := run_bind h
  · obtain ⟨r, raised, -⟩ := run_attempt hr
    cases raised
  · obtain ⟨r, same, hx⟩ := run_attempt hr
    cases same
    obtain ⟨e, rfl, hr⟩ | ⟨_, middle, last, rfl, hr, hl⟩ := run_bind hf
    · exact ⟨first, rest, outcome, .error e, rfl, hx, hr, rfl⟩
    · have ends : last = [] ∧ res = outcome := by
        cases outcome with
        | ok a => exact run_pure_iff.mp hl
        | error e => exact run_raise_iff.mp hl
      obtain ⟨rfl, rfl⟩ := ends
      rw [List.append_nil]
      exact ⟨first, middle, res, .ok (), rfl, hx, hr, rfl⟩

variable (world : (op : I.Op) → Except I.Exc (I.Reply op))

theorem run_exec (x : Proc I α) : Run x (x.exec world).1 (x.exec world).2 := by
  induction x with
  | ret a => exact .ret a
  | raise e => exact .raise e
  | await op k ih => exact .await (world op) (ih (world op))

theorem answer_of_mem_exec {x : Proc I α} {e : Event I} (h : e ∈ (x.exec world).1) :
    e.answer = world e.op := by
  induction x with
  | ret a => simp [exec] at h
  | raise e => simp [exec] at h
  | await op k ih =>
    obtain rfl | h := List.mem_cons.mp h
    · rfl
    · exact ih (world op) h

end Runs

/-- After the events of `past`, `x` has `y` still to do. -/
inductive Residual : Proc I α → List (Event I) → Proc I α → Prop where
  | refl (x : Proc I α) : Residual x [] x
  | snoc {x : Proc I α} {past : List (Event I)} {op : I.Op}
      {k : Except I.Exc (I.Reply op) → Proc I α} (answer : Except I.Exc (I.Reply op)) :
      Residual x past (.await op k) → Residual x (past ++ [⟨op, answer⟩]) (k answer)

theorem Residual.run {x y : Proc I α} {past es : List (Event I)} {res : Except I.Exc α}
    (h : Residual x past y) (run : Run y es res) : Run x (past ++ es) res := by
  induction h generalizing es with
  | refl => exact run
  | snoc answer _ ih =>
    rw [List.append_assoc]
    exact ih (.await answer run)

/-- What a program has done so far is the beginning of a run. -/
theorem Residual.exists_run [Nonempty I.Exc] {x y : Proc I α} {past : List (Event I)}
    (h : Residual x past y) : ∃ rest res, Run x (past ++ rest) res := by
  obtain ⟨e⟩ := ‹Nonempty I.Exc›
  exact ⟨_, _, h.run (run_exec (fun _ => .error e) y)⟩

/-- `Q` of a normal return and `E` of a raise. -/
def Ending (Q : α → List (Event I) → Prop) (E : I.Exc → List (Event I) → Prop) :
    Except I.Exc α → List (Event I) → Prop
  | .ok a => Q a
  | .error e => E e

/-- On every path, started after a past that satisfies `P`: a normal return satisfies `Q` and
a raise satisfies `E`, both of the past and the path together. -/
def Triple (P : List (Event I) → Prop) (x : Proc I α) (Q : α → List (Event I) → Prop)
    (E : I.Exc → List (Event I) → Prop) : Prop :=
  ∀ past es res, P past → Run x es res → Ending Q E res (past ++ es)

namespace Triple

variable {P P' : List (Event I) → Prop} {x : Proc I α} {Q Q' : α → List (Event I) → Prop}
  {E E' : I.Exc → List (Event I) → Prop}

theorem pure {a : α} (h : ∀ t, P t → Q a t) : Triple P (Pure.pure a) Q E := by
  intro past es res hp run
  obtain ⟨rfl, rfl⟩ := run_pure_iff.mp run
  rw [List.append_nil]
  exact h past hp

theorem raise {e : I.Exc} (h : ∀ t, P t → E e t) : Triple P (.raise e) Q E := by
  intro past es res hp run
  obtain ⟨rfl, rfl⟩ := run_raise_iff.mp run
  rw [List.append_nil]
  exact h past hp

theorem ofExcept {r : Except I.Exc α} (hok : ∀ a t, r = .ok a → P t → Q a t)
    (herr : ∀ e t, r = .error e → P t → E e t) : Triple P (Proc.ofExcept r) Q E := by
  cases r with
  | ok a => exact pure fun t => hok a t rfl
  | error e => exact raise fun t => herr e t rfl

/-- To take up an ending again. -/
theorem resume (r : Except I.Exc α) : Triple (Ending Q E r) (Proc.ofExcept r) Q E := by
  cases r with
  | ok a => exact pure fun t => id
  | error e => exact raise fun t => id

theorem perform {op : I.Op} {Q : I.Reply op → List (Event I) → Prop}
    (hok : ∀ t a, P t → Q a (t ++ [⟨op, .ok a⟩]))
    (herr : ∀ t e, P t → E e (t ++ [⟨op, .error e⟩])) : Triple P (Proc.perform op) Q E := by
  intro past es res hp run
  obtain rfl := run_perform_iff.mp run
  cases res with
  | ok a => exact hok past a hp
  | error e => exact herr past e hp

theorem bind {f : α → Proc I β} {R : β → List (Event I) → Prop} (hx : Triple P x Q E)
    (hf : ∀ a, Triple (Q a) (f a) R E) : Triple P (x >>= f) R E := by
  intro past es res hp run
  obtain ⟨e, rfl, hr⟩ | ⟨a, first, rest, rfl, hr, hr'⟩ := run_bind run
  · exact hx past es (.error e) hp hr
  · rw [← List.append_assoc]
    exact hf a (past ++ first) rest res (hx past first (.ok a) hp hr) hr'

theorem attempt (hx : Triple P x Q E) : Triple P x.attempt (Ending Q E) E' := by
  intro past es res hp run
  obtain ⟨r, rfl, hr⟩ := run_attempt run
  exact hx past es r hp hr

theorem attempt_perform {op : I.Op} {Q : Except I.Exc (I.Reply op) → List (Event I) → Prop}
    (h : ∀ t answer, P t → Q answer (t ++ [⟨op, answer⟩])) :
    Triple P (Proc.perform op).attempt Q E := by
  intro past es res hp run
  obtain ⟨answer, rfl, hr⟩ := run_attempt run
  obtain rfl := run_perform_iff.mp hr
  exact h past answer hp

theorem tryCatch {handler : I.Exc → Proc I α} (hx : Triple P x Q E')
    (hh : ∀ e, Triple (E' e) (handler e) Q E) : Triple P (x.tryCatch handler) Q E := by
  refine bind hx.attempt fun r => ?_
  cases r with
  | ok a => exact pure fun t => id
  | error e => exact hh e

theorem tryFinally {final : Except I.Exc α → Proc I Unit} (hx : Triple P x Q' E')
    (hok : ∀ a, Triple (Q' a) (final (.ok a)) (fun _ => Q a) E)
    (herr : ∀ e, Triple (E' e) (final (.error e)) (fun _ => E e) E) :
    Triple P (x.tryFinally final) Q E := by
  refine bind hx.attempt fun r => ?_
  cases r with
  | ok a => exact bind (hok a) fun _ => pure fun t => id
  | error e => exact bind (herr e) fun _ => raise fun t => id

/-- What the past alone guarantees stays true. -/
theorem frame {M : List (Event I) → Prop} (mono : ∀ t es, M t → M (t ++ es))
    (hx : Triple P x Q E) :
    Triple (fun t => P t ∧ M t) x (fun a t => Q a t ∧ M t) (fun e t => E e t ∧ M t) := by
  rintro past es res ⟨hp, hm⟩ run
  have := hx past es res hp run
  cases res with
  | ok a => exact ⟨this, mono past es hm⟩
  | error e => exact ⟨this, mono past es hm⟩

theorem of_exists {ι : Type} {P : ι → List (Event I) → Prop} (h : ∀ i, Triple (P i) x Q E) :
    Triple (fun t => ∃ i, P i t) x Q E := by
  rintro past es res ⟨i, hp⟩ run
  exact h i past es res hp run

/-- A fact about the past that does not depend on it is a hypothesis. -/
theorem of_and {c : Prop} (h : c → Triple P x Q E) : Triple (fun t => c ∧ P t) x Q E := by
  rintro past es res ⟨hc, hp⟩ run
  exact h hc past es res hp run

theorem conseq (h : Triple P' x Q' E') (hp : ∀ t, P t → P' t) (hq : ∀ a t, Q' a t → Q a t)
    (he : ∀ e t, E' e t → E e t) : Triple P x Q E := by
  intro past es res h' run
  have := h past es res (hp past h') run
  cases res with
  | ok a => exact hq a _ this
  | error e => exact he e _ this

end Triple

end Await
