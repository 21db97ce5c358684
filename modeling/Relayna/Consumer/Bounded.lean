import Relayna.Consumer.Health
import Mathlib.Data.List.Perm.Basic

/-!
# `map_bounded`

At most `concurrency` workers share a list of items. A worker takes the next item, prepares
the operation for it, awaits that and takes the next. Which of the pending operations is
answered next is the event loop's choice. When a worker fails or the caller is cancelled, the
others are told to stop: they may start further items until they are, what is pending is
awaited to its end, and the first exception is raised.
-/
namespace Relayna.Consumer

open Await

variable {Item : Type}

section Workers

variable (prepare : Item → Except Exc Op)

/-- The state between two completions: the items not yet taken, the operations awaited and
the first exception. -/
structure Workers (Item : Type) where
  waiting : List Item
  pending : List Op
  failed : Option Exc

/-- A worker takes the next item. What it raises before it awaits ends it. -/
def Workers.take (w : Workers Item) : Workers Item :=
  match w.waiting with
  | [] => w
  | item :: rest =>
    match prepare item with
    | .ok op => { w with waiting := rest, pending := w.pending ++ [op] }
    | .error exc => { w with waiting := rest, failed := w.failed.or (some exc) }

/-- Which worker goes on, and what the others are told to stop for. -/
def turn {others : Nat} : Except Exc (Fin (others + 1) × Bool) → Fin (others + 1) × Option Exc
  | .ok (index, stopped) => (index, if stopped then some .cancelled else none)
  | .error exc => (⟨0, Nat.succ_pos others⟩, some exc)

/-- The end of `map_bounded` once nothing is pending. -/
def Workers.conclude (w : Workers Item) : Proc Unit :=
  match w.failed with
  | none => pure ()
  | some exc => .raise exc

/-- Each round ends one pending operation, so as many rounds as there are items are enough. -/
def runWorkers : Nat → Workers Item → Proc Unit
  | 0, w => w.conclude
  | rounds + 1, w =>
    match w.pending with
    | [] => w.conclude
    | op :: ops => do
      let (index, halt) := turn (← (perform (.completion ops.length)).attempt)
      let next : Workers Item :=
        { w with pending := (op :: ops).eraseIdx index, failed := w.failed.or halt }
      match ← (perform ((op :: ops).get index)).attempt with
      | .ok _ => runWorkers rounds (if halt.isSome then next else next.take prepare)
      | .error exc => runWorkers rounds { next with failed := next.failed.or (some exc) }

/-- `map_bounded` for a worker that prepares one operation and awaits it. -/
def mapBounded (items : List Item) (concurrency : Nat) : Proc Unit :=
  if concurrency < 1 then .raise (.error "ValueError" "concurrency must be at least 1")
  else if items = [] then pure ()
  else runWorkers prepare items.length
    ((Workers.take prepare)^[min concurrency items.length] ⟨items, [], none⟩)

end Workers

variable {prepare : Item → Except Exc Op} {items : List Item} {w : Workers Item}
  {published : List Op}

/-- As long as no worker has failed, one is busy while there are items. -/
def Workers.Busy (w : Workers Item) : Prop :=
  w.failed = none → w.pending = [] → w.waiting = []

/-- What the workers have left to do. -/
def Workers.load (w : Workers Item) : Nat := w.waiting.length + w.pending.length

theorem Workers.take_busy (prepare : Item → Except Exc Op) (w : Workers Item) :
    (w.take prepare).Busy := by
  unfold take Busy
  split
  · intro _ _
    assumption
  · split <;> simp

theorem Workers.take_load (prepare : Item → Except Exc Op) (w : Workers Item) :
    (w.take prepare).load ≤ w.load := by
  unfold take load
  split
  · exact le_rfl
  · rename_i hw
    split
    · simp [hw]
      omega
    · simp [hw]

/-- An operation has been answered: what it raises, its worker fails with. -/
def Workers.answered {α : Type} (w : Workers Item) : Except Exc α → Workers Item
  | .ok _ => w
  | .error exc => { w with failed := w.failed.or (some exc) }

/-- What every move of the workers keeps. -/
structure Workers.Kept (prepare : Item → Except Exc Op) (K : Workers Item → List Event → Prop) :
    Prop where
  take : ∀ {w t}, K w t → K (w.take prepare) t
  turn : ∀ {w t others} (answer : Except Exc (Fin (others + 1) × Bool)), K w t →
    K { w with failed := w.failed.or (Consumer.turn answer).2 }
      (t ++ [⟨.completion others, answer⟩])
  answer : ∀ {w t op ops}, w.pending = op :: ops → ∀ (index : Fin (ops.length + 1))
    (answer : Except Exc ((op :: ops).get index).Reply), K w t →
      K (Workers.answered { w with pending := (op :: ops).eraseIdx index } answer)
        (t ++ [⟨(op :: ops).get index, answer⟩])

section Rule

variable {K : Workers Item → List Event → Prop} {Q : Unit → List Event → Prop}
  {E : Exc → List Event → Prop}

/-- The induction over the rounds: each of them ends one operation. -/
theorem runWorkers_rule (kept : Workers.Kept prepare K)
    (conclude : ∀ w : Workers Item, w.Busy → w.pending = [] → Triple (K w) w.conclude Q E)
    (rounds : Nat) (busy : w.Busy) (load : w.load ≤ rounds) :
    Triple (K w) (runWorkers prepare rounds w) Q E := by
  induction rounds generalizing w with
  | zero =>
    have idle : w.pending = [] := by
      unfold Workers.load at load
      exact List.length_eq_zero_iff.mp (by omega)
    exact conclude w busy idle
  | succ rounds ih =>
    unfold runWorkers
    split
    · rename_i idle
      exact conclude w busy idle
    · rename_i op ops hw
      refine .bind (.attempt_perform fun t answer => kept.turn answer) fun answer => ?_
      obtain ⟨index, halt⟩ := turn answer
      have lighter : ({ w with
          pending := (op :: ops).eraseIdx index
          failed := w.failed.or halt } : Workers Item).load ≤ rounds := by
        have := List.length_eraseIdx_of_lt (l := op :: ops) (i := index) index.isLt
        simp only [Workers.load, hw, List.length_cons] at load this ⊢
        omega
      have told : ({ w with failed := w.failed.or halt } : Workers Item).pending = op :: ops := hw
      refine .bind (.attempt_perform fun t answer => kept.answer told index answer) fun answer => ?_
      cases answer with
      | ok a =>
        cases halt with
        | none =>
          exact (ih (Workers.take_busy _ _) ((Workers.take_load _ _).trans lighter)).conseq
            (fun t => kept.take) (fun _ _ => id) fun _ _ => id
        | some exc => exact ih (fun hf => by simp [Workers.answered] at hf) lighter
      | error exc => exact ih (fun hf => by simp [Workers.answered] at hf) lighter

theorem iterate_take_load (n : Nat) :
    ((Workers.take prepare)^[n] ⟨items, [], none⟩).load ≤ items.length := by
  induction n with
  | zero => simp [Workers.load]
  | succ n ih =>
    rw [Function.iterate_succ_apply']
    exact (Workers.take_load _ _).trans ih

theorem iterate_take_kept (kept : Workers.Kept prepare K) {t : List Event}
    (start : K ⟨items, [], none⟩ t) (n : Nat) :
    K ((Workers.take prepare)^[n] ⟨items, [], none⟩) t := by
  induction n with
  | zero => exact start
  | succ n ih =>
    rw [Function.iterate_succ_apply']
    exact kept.take ih

theorem mapBounded_rule (kept : Workers.Kept prepare K)
    (conclude : ∀ w : Workers Item, w.Busy → w.pending = [] → Triple (K w) w.conclude Q E)
    {concurrency : Nat} (positive : 1 ≤ concurrency) :
    Triple (K ⟨items, [], none⟩) (mapBounded prepare items concurrency) Q E := by
  unfold mapBounded
  rw [if_neg (by omega)]
  split
  · rename_i empty
    subst empty
    exact conclude ⟨[], [], none⟩ (fun _ _ => rfl) rfl
  · rename_i nonempty
    obtain ⟨n, hn⟩ : ∃ n, min concurrency items.length = n + 1 := by
      have := List.length_pos_iff.mpr nonempty
      exact ⟨min concurrency items.length - 1, by omega⟩
    have busy : ((Workers.take prepare)^[min concurrency items.length]
        ⟨items, [], none⟩).Busy := by
      rw [hn, Function.iterate_succ_apply']
      exact Workers.take_busy _ _
    exact (runWorkers_rule kept conclude _ busy (iterate_take_load _)).conseq
      (fun t start => iterate_take_kept kept start _) (fun _ _ => id) fun _ _ => id

end Rule

/-- Why `map_bounded` raises. -/
def Cause (prepare : Item → Except Exc Op) (items : List Item) (t : List Event) : Prop :=
  Unhealthy t ∨ ∃ item ∈ items, ∀ op, prepare item ≠ .ok op

theorem Cause.mono {t : List Event} (e : Event) (h : Cause prepare items t) :
    Cause prepare items (t ++ [e]) := by
  obtain ⟨e', he', bad⟩ | h := h
  · exact Or.inl ⟨e', List.mem_append_left _ he', bad⟩
  · exact Or.inr h

/-- Every item is waiting, pending or published, unless a worker has failed. -/
structure Workers.Covers (prepare : Item → Except Exc Op) (items : List Item) (w : Workers Item)
    (published : List Op) : Prop where
  waiting : ∀ item ∈ w.waiting, item ∈ items
  pending : ∀ op ∈ w.pending, ∃ item ∈ items, prepare item = .ok op
  covered : w.failed = none → ∀ item ∈ items, item ∈ w.waiting ∨
    ∃ op, prepare item = .ok op ∧ (op ∈ w.pending ∨ op ∈ published)

theorem Workers.Covers.take (h : w.Covers prepare items published) :
    (w.take prepare).Covers prepare items published := by
  unfold Workers.take
  split
  · exact h
  · rename_i item rest hw
    have member : item ∈ items := h.waiting item (hw ▸ List.mem_cons_self)
    have waiting : ∀ i ∈ rest, i ∈ items := fun i hi =>
      h.waiting i (hw ▸ List.mem_cons_of_mem _ hi)
    split
    · rename_i op hop
      refine ⟨waiting, fun op' hop' => ?_, fun hf i hi => ?_⟩
      · obtain hop' | hop' := List.mem_append.mp hop'
        · exact h.pending op' hop'
        · exact ⟨item, member, List.mem_singleton.mp hop' ▸ hop⟩
      · obtain hi | ⟨op', hop', hin⟩ := h.covered hf i hi
        · rw [hw] at hi
          obtain rfl | hi := List.mem_cons.mp hi
          · exact Or.inr ⟨op, hop, Or.inl (List.mem_append_right _ (List.mem_singleton_self _))⟩
          · exact Or.inl hi
        · exact Or.inr ⟨op', hop', hin.imp_left (List.mem_append_left _)⟩
    · exact ⟨waiting, h.pending, fun hf => by simp at hf⟩

theorem Workers.take_failed {t : List Event} (h : w.Covers prepare items published)
    (cause : w.failed ≠ none → Cause prepare items t) :
    (w.take prepare).failed ≠ none → Cause prepare items t := by
  unfold Workers.take
  split
  · exact cause
  · rename_i item rest hw
    split
    · exact cause
    · rename_i exc hexc
      intro _
      exact Or.inr ⟨item, h.waiting item (hw ▸ List.mem_cons_self), by simp [hexc]⟩

/-- One pending operation has been answered. -/
theorem Workers.Covers.complete {op : Op} {ops : List Op}
    (h : w.Covers prepare items published) (hw : w.pending = op :: ops)
    (index : Fin (ops.length + 1)) :
    ({ w with pending := (op :: ops).eraseIdx index } : Workers Item).Covers
      prepare items ((op :: ops).get index :: published) := by
  have perm := List.getElem_cons_eraseIdx_perm (l := op :: ops) (n := index) index.isLt
  refine ⟨h.waiting, fun op' hop' => h.pending op' ?_, fun hf item hi => ?_⟩
  · rw [hw]
    exact List.mem_of_mem_eraseIdx hop'
  · obtain hi | ⟨op', hop', hin⟩ := h.covered hf item hi
    · exact Or.inl hi
    · refine Or.inr ⟨op', hop', ?_⟩
      obtain hin | hin := hin
      · rw [hw] at hin
        obtain rfl | hin := List.mem_cons.mp (perm.mem_iff.mpr hin)
        · exact Or.inr List.mem_cons_self
        · exact Or.inl hin
      · exact Or.inr (List.mem_cons_of_mem _ hin)

/-- What the operations of `map_bounded` keep of the past, given what has been published. -/
structure Keeps (prepare : Item → Except Exc Op) (items : List Item)
    (J : List Op → List Event → Prop) : Prop where
  stable : ∀ published, Stable (J published)
  ok : ∀ {published t item op} (a : op.Reply), item ∈ items → prepare item = .ok op →
    J published t → J (op :: published) (t ++ [⟨op, .ok a⟩])
  error : ∀ {published t item op} (exc : Exc), item ∈ items → prepare item = .ok op →
    J published t → J published (t ++ [⟨op, .error exc⟩]) ∧ healthy ⟨op, .error exc⟩ = false

def Finished (prepare : Item → Except Exc Op) (items : List Item)
    (J : List Op → List Event → Prop) (t : List Event) : Prop :=
  ∃ published, J published t ∧ ∀ item ∈ items, ∃ op ∈ published, prepare item = .ok op

variable {J : List Op → List Event → Prop}

theorem Workers.conclude_triple (h : w.Covers prepare items published) (busy : w.Busy)
    (idle : w.pending = []) :
    Triple (fun t => J published t ∧ (w.failed ≠ none → Cause prepare items t)) w.conclude
      (fun _ => Finished prepare items J)
      (fun _ t => (∃ published, J published t) ∧ Cause prepare items t) := by
  unfold conclude
  cases hf : w.failed with
  | none =>
    refine .pure fun t ht => ⟨published, ht.1, fun item hi => ?_⟩
    have none := busy hf idle
    obtain hi | ⟨op, hop, hin⟩ := h.covered hf item hi
    · simp [none] at hi
    · obtain hin | hin := hin
      · simp [idle] at hin
      · exact ⟨op, hin, hop⟩
  | some exc => exact .raise fun t ht => ⟨⟨published, ht.1⟩, ht.2 (by simp)⟩

theorem turn_healthy {others : Nat} {answer : Except Exc (Fin (others + 1) × Bool)}
    (h : (turn answer).2 ≠ none) : healthy ⟨.completion others, answer⟩ = false := by
  cases answer with
  | ok choice =>
    obtain ⟨index, stopped⟩ := choice
    cases stopped <;> simp_all [turn, healthy]
  | error exc => rfl

/-- The items are covered, and a failure has its cause. -/
def Workers.Tracks (prepare : Item → Except Exc Op) (items : List Item)
    (J : List Op → List Event → Prop) (w : Workers Item) (t : List Event) : Prop :=
  ∃ published, w.Covers prepare items published ∧ J published t ∧
    (w.failed ≠ none → Cause prepare items t)

theorem Workers.Tracks.answer {t : List Event} {op : Op} {ops : List Op}
    (keeps : Keeps prepare items J) (h : w.Tracks prepare items J t) (hw : w.pending = op :: ops)
    (index : Fin (ops.length + 1)) (answer : Except Exc ((op :: ops).get index).Reply) :
    (Workers.answered { w with pending := (op :: ops).eraseIdx index } answer).Tracks prepare items
      J (t ++ [⟨(op :: ops).get index, answer⟩]) := by
  obtain ⟨published, covers, kept, cause⟩ := h
  obtain ⟨item, hi, hop⟩ := covers.pending ((op :: ops).get index) (by
    rw [hw]
    exact List.get_mem _ _)
  have completed := covers.complete hw index
  cases answer with
  | ok a => exact ⟨_, completed, keeps.ok a hi hop kept, fun hf => (cause hf).mono _⟩
  | error exc =>
    obtain ⟨kept, bad⟩ := keeps.error exc hi hop kept
    refine ⟨published, ⟨completed.waiting, completed.pending, fun hf => ?_⟩, kept, fun _ => ?_⟩
    · simp [Workers.answered] at hf
    · exact Or.inl (unhealthy_snoc bad)

theorem Workers.Tracks.kept (keeps : Keeps prepare items J) :
    Workers.Kept prepare (Workers.Tracks prepare items J) where
  take := by
    rintro w t ⟨published, covers, kept, cause⟩
    exact ⟨published, covers.take, kept, Workers.take_failed covers cause⟩
  turn := by
    rintro w t others answer ⟨published, covers, kept, cause⟩
    refine ⟨published, ⟨covers.waiting, covers.pending, fun hf => ?_⟩,
      keeps.stable _ _ _ kept rfl, fun hf => ?_⟩
    · exact covers.covered (Option.or_eq_none_iff.mp hf).1
    · by_cases failed : w.failed = none
      · exact Or.inl (unhealthy_snoc (turn_healthy (by simpa [failed] using hf)))
      · exact (cause failed).mono _
  answer hw index answer h := h.answer keeps hw index answer

/-- `map_bounded` returns when every item's operation has succeeded. It raises only if an
operation has or an item cannot be prepared. -/
theorem mapBounded_triple (keeps : Keeps prepare items J) {concurrency : Nat}
    (positive : 1 ≤ concurrency) :
    Triple (J []) (mapBounded prepare items concurrency) (fun _ => Finished prepare items J)
      (fun _ t => (∃ published, J published t) ∧ Cause prepare items t) := by
  have conclude : ∀ w : Workers Item, w.Busy → w.pending = [] →
      Triple (w.Tracks prepare items J) w.conclude (fun _ => Finished prepare items J)
        (fun _ t => (∃ published, J published t) ∧ Cause prepare items t) :=
    fun w busy idle => .of_exists fun published => .of_and fun covers =>
      Workers.conclude_triple covers busy idle
  refine (mapBounded_rule (Workers.Tracks.kept keeps) conclude positive).conseq (fun t ht => ?_)
    (fun _ _ => id) fun _ _ => id
  exact ⟨[], ⟨fun _ => id, by simp, fun _ item hi => Or.inl hi⟩, ht, by simp⟩

end Relayna.Consumer
