import Relayna.Consumer.Bounded
import Mathlib.Data.List.Perm.Subperm

/-!
# What `map_bounded` sends

The messages that a run has put on queues, whichever of the workers put them there. What has been
sent and what the workers have left make up what there was to send, less what has failed.
-/
namespace Relayna.Consumer

open Await

def Op.raw : Op → Option (String × Outgoing)
  | .publishRaw queueName message => some (queueName, message)
  | _ => none

/-- The messages that have been put on queues, in this order. -/
def sent (t : List Event) : List (String × Outgoing) :=
  t.filterMap fun e => match e.answer with
    | .ok _ => e.op.raw
    | .error _ => none

theorem sent_snoc_ok {t : List Event} {op : Op} (a : op.Reply) :
    sent (t ++ [⟨op, .ok a⟩]) = sent t ++ op.raw.toList := by
  cases h : op.raw <;> simp [sent, h]

theorem sent_snoc_error {t : List Event} {op : Op} (exc : Exc) :
    sent (t ++ [⟨op, .error exc⟩]) = sent t := by
  simp [sent]

theorem sent_snoc_of_raw {t : List Event} {e : Event} (h : e.op.raw = none) :
    sent (t ++ [e]) = sent t := by
  obtain ⟨op, answer⟩ := e
  cases answer with
  | ok a => rw [sent_snoc_ok, h, Option.toList_none, List.append_nil]
  | error exc => exact sent_snoc_error exc

theorem raw_of_auxiliary {op : Op} (h : op.auxiliary = true) : op.raw = none := by
  cases op <;> first | rfl | simp [Op.auxiliary] at h

theorem Stable.sent (P : List (String × Outgoing) → Prop) : Stable fun t => P (sent t) := by
  intro past e h aux
  rw [sent_snoc_of_raw (raw_of_auxiliary aux)]
  exact h

section Workers

variable {Item : Type} {prepare : Item → Except Exc Op} {items : List Item} {w : Workers Item}
  {queue : List (String × Outgoing)} {t : List Event}

/-- What is pending and what is still to be prepared. -/
def Workers.unsent (prepare : Item → Except Exc Op) (w : Workers Item) :
    List (String × Outgoing) :=
  (w.pending ++ w.waiting.filterMap fun item => (prepare item).toOption).filterMap Op.raw

/-- What has been sent and what is left make up the queue, less what has failed. -/
structure Workers.Ships (prepare : Item → Except Exc Op) (queue : List (String × Outgoing))
    (w : Workers Item) (t : List Event) : Prop where
  subperm : (sent t ++ w.unsent prepare).Subperm queue
  perm : w.failed = none → (sent t ++ w.unsent prepare).Perm queue

theorem Workers.unsent_take : (w.take prepare).unsent prepare = w.unsent prepare := by
  unfold take
  split
  · rfl
  · rename_i item rest hw
    split <;> rename_i h <;> simp [unsent, hw, h, Except.toOption]

theorem Workers.Ships.take (h : w.Ships prepare queue t) :
    (w.take prepare).Ships prepare queue t := by
  refine ⟨?_, fun hf => ?_⟩
  · rw [unsent_take]
    exact h.subperm
  · rw [unsent_take]
    refine h.perm ?_
    by_contra failed
    revert hf
    unfold Workers.take
    split
    · exact failed
    · split <;> simp [failed]

/-- One pending operation leaves the pending ones. -/
theorem Workers.unsent_eraseIdx (prepare : Item → Except Exc Op) {op : Op} {ops : List Op}
    (hw : w.pending = op :: ops) (index : Fin (ops.length + 1)) (failed : Option Exc) :
    (((op :: ops).get index).raw.toList ++
      ({ w with pending := (op :: ops).eraseIdx index, failed } : Workers Item).unsent
        prepare).Perm (w.unsent prepare) := by
  have perm := List.getElem_cons_eraseIdx_perm (l := op :: ops) (n := index) index.isLt
  unfold unsent
  rw [hw]
  refine List.Perm.trans (List.Perm.of_eq ?_) ((perm.append_right _).filterMap Op.raw)
  rw [List.cons_append, List.filterMap_cons]
  cases h : ((op :: ops).get index).raw <;> simp_all

theorem Workers.Ships.completed {op : Op} {ops : List Op} (h : w.Ships prepare queue t)
    (hw : w.pending = op :: ops) (index : Fin (ops.length + 1))
    (a : ((op :: ops).get index).Reply) :
    ({ w with pending := (op :: ops).eraseIdx index } : Workers Item).Ships prepare queue
      (t ++ [⟨(op :: ops).get index, .ok a⟩]) := by
  have perm := (Workers.unsent_eraseIdx prepare hw index w.failed).append_left (sent t)
  rw [← List.append_assoc, ← sent_snoc_ok a] at perm
  exact ⟨perm.subperm.trans h.subperm, fun hf => perm.trans (h.perm hf)⟩

theorem Workers.Ships.broken {op : Op} {ops : List Op} {exc : Exc}
    (h : w.Ships prepare queue t) (hw : w.pending = op :: ops) (index : Fin (ops.length + 1)) :
    ({ w with
        pending := (op :: ops).eraseIdx index
        failed := w.failed.or (some exc) } : Workers Item).Ships prepare queue
      (t ++ [⟨(op :: ops).get index, .error exc⟩]) := by
  have perm := Workers.unsent_eraseIdx prepare hw index (w.failed.or (some exc))
  refine ⟨?_, fun hf => by simp at hf⟩
  rw [sent_snoc_error]
  refine List.Subperm.trans ?_ h.subperm
  exact (List.Subperm.refl _).append ((List.sublist_append_right _ _).subperm.trans perm.subperm)

theorem Workers.conclude_ships (busy : w.Busy) (idle : w.pending = []) :
    Triple (w.Ships prepare queue) w.conclude (fun _ t => (sent t).Perm queue)
      (fun _ t => (sent t).Subperm queue) := by
  unfold conclude
  cases hf : w.failed with
  | none =>
    refine .pure fun t h => ?_
    simpa [unsent, idle, busy hf idle] using h.perm hf
  | some exc =>
    refine .raise fun t h => ?_
    exact (List.sublist_append_left _ _).subperm.trans h.subperm

theorem Workers.Ships.kept : Workers.Kept prepare (Workers.Ships prepare queue) where
  take h := h.take
  turn := by
    intro w t others answer h
    have same : sent (t ++ [⟨.completion others, answer⟩]) = sent t := sent_snoc_of_raw rfl
    refine ⟨same ▸ h.subperm, fun hf => ?_⟩
    exact same ▸ h.perm (Option.or_eq_none_iff.mp hf).1
  answer := by
    intro w t op ops hw index answer h
    cases answer with
    | ok a => exact h.completed hw index a
    | error exc => exact h.broken hw index

/-- `map_bounded` sends every message once and in some order if it returns, and some of them
if it raises. -/
theorem mapBounded_ships {concurrency : Nat} (positive : 1 ≤ concurrency)
    (prepared : items.map prepare = queue.map fun entry => .ok (.publishRaw entry.1 entry.2)) :
    Triple (fun t => sent t = []) (mapBounded prepare items concurrency)
      (fun _ t => (sent t).Perm queue) (fun _ t => (sent t).Subperm queue) := by
  have unsent : (⟨items, [], none⟩ : Workers Item).unsent prepare = queue := by
    have : (items.filterMap fun item => (prepare item).toOption) =
        queue.map fun entry => .publishRaw entry.1 entry.2 := by
      have := congrArg (List.filterMap Except.toOption) prepared
      rw [List.filterMap_map, List.filterMap_map] at this
      refine this.trans ?_
      rw [← List.filterMap_eq_map]
      rfl
    simp only [Workers.unsent, this, List.nil_append, List.filterMap_map]
    exact List.filterMap_some
  refine (mapBounded_rule Workers.Ships.kept (fun w busy idle => Workers.conclude_ships busy idle)
    positive).conseq (fun t h => ⟨?_, fun _ => ?_⟩) (fun _ _ => id) fun _ _ => id
  · rw [h, unsent, List.nil_append]
  · rw [h, unsent, List.nil_append]

end Workers

end Relayna.Consumer
