import Mathlib.Data.Set.Card
import Relayna.Dlq.Replay

/-!
# Concurrent changes of one record

Every operation writes the whole record it has built from the copy it read, so a change made in
between is kept only if it does not show in what is written. `FreshWrite` is that condition, and
in runs that meet it the record is the initial one with every write applied in order.
-/
namespace Relayna.Dlq

open Python Storage Transition

inductive ChangeKind where
  | replay
  | retry
  | investigation
  deriving DecidableEq, Repr

namespace Change

def kind : Change → ChangeKind
  | .replayed .. => .replay
  | .retried .. => .retry
  | .investigated .. | .uninvestigated => .investigation

/-- The record shows the fields the change wrote. -/
def Reflected : Change → DLQRecord → Prop
  | .replayed replayedAt targetQueueName, r =>
    r.state = .replayed ∧ r.replayedAt = some replayedAt ∧
      r.replayTargetQueueName = some targetQueueName
  | .retried retriedAt retriedBy retriedTaskId targetQueue note, r =>
    r.retryStatus = .retried ∧ r.retriedAt = some retriedAt ∧ r.retriedBy = some retriedBy ∧
      r.retriedTaskId = retriedTaskId ∧ r.retryTargetQueue = some targetQueue ∧ r.retryNote = note
  | .investigated investigatedAt investigatedBy note, r =>
    r.investigationStatus = .investigated ∧ r.investigatedAt = some investigatedAt ∧
      r.investigatedBy = some investigatedBy ∧ r.investigationNote = note
  | .uninvestigated, r =>
    r.investigationStatus = .unreviewed ∧ r.investigatedAt = none ∧ r.investigatedBy = none ∧
      r.investigationNote = none

theorem reflected_apply (change : Change) (r : DLQRecord) : change.Reflected (change.apply r) := by
  cases change <;> simp [apply, Reflected]

/-- Changes of different kinds write different fields. -/
theorem Reflected.apply {change later : Change} {r : DLQRecord} (h : change.Reflected r)
    (other : later.kind ≠ change.kind) : change.Reflected (later.apply r) := by
  cases change <;> cases later <;> first
    | exact absurd rfl other
    | exact h

theorem apply_replayCount (change : Change) (r : DLQRecord) :
    (change.apply r).replayCount = r.replayCount + if change.kind = .replay then 1 else 0 := by
  cases change <;> simp [apply, kind]

end Change

/-- The record after the writes, in order. -/
def applyAll (r : DLQRecord) (writes : List (Nat × Change)) : DLQRecord :=
  writes.foldl (fun q w => w.2.apply q) r

theorem applyAll_concat (r : DLQRecord) (writes : List (Nat × Change)) (w : Nat × Change) :
    applyAll r (writes ++ [w]) = w.2.apply (applyAll r writes) := by
  simp [applyAll]

theorem applyAll_reflected (r : DLQRecord) (before after : List (Nat × Change)) (w : Nat × Change)
    (last : ∀ v ∈ after, v.2.kind ≠ w.2.kind) :
    w.2.Reflected (applyAll r (before ++ w :: after)) := by
  induction after using List.reverseRecOn with
  | nil =>
    rw [applyAll_concat]
    exact w.2.reflected_apply _
  | append_singleton after v ih =>
    rw [← List.cons_append, ← List.append_assoc, applyAll_concat]
    have others : ∀ v ∈ after, v.2.kind ≠ w.2.kind := fun v hv =>
      last v (List.mem_append_left _ hv)
    exact (ih others).apply (last v (by simp))

theorem applyAll_replayCount (r : DLQRecord) (writes : List (Nat × Change)) :
    (applyAll r writes).replayCount =
      r.replayCount + (writes.filter fun w => w.2.kind = .replay).length := by
  induction writes using List.reverseRecOn with
  | nil => simp [applyAll]
  | append_singleton writes w ih =>
    rw [applyAll_concat, Change.apply_replayCount, ih, List.filter_append, List.length_append]
    by_cases hw : w.2.kind = .replay
    · simp [hw]
      omega
    · simp [hw]

/-! ## What a call has written -/

/-- What an operation that ended so has written; `wrote` holds of its writes. An operation that
raised may have written before a later command failed. -/
def Outcome.Wrote (wrote : Change → Prop) : Outcome → Prop
  | .replayed _ => ∃ change, wrote change ∧ change.kind = .replay
  | .retried change => wrote change ∧ change.kind = .retry
  | .detail _ => ∃ change, wrote change ∧ change.kind = .investigation
  | .raised => True
  | .notFound | .deleted _ | .replayConflict _ | .rejected _ => ∀ change, ¬ wrote change

namespace Call

def Wrote (wrote : Change → Prop) : Call → Prop
  | .deleteReplayLock outcome | .ended outcome => outcome.Wrote wrote
  | .indexUpdated _ (some outcome) => outcome.Wrote wrote
  | .indexUpdated _ none | .getDetail => ∃ change, wrote change ∧ change.kind = .investigation
  | .setReplayed _ _ change _ => (∀ change, ¬ wrote change) ∧ change.kind = .replay
  | .setUpdated _ change (some outcome) =>
    (∀ change, ¬ wrote change) ∧ change.kind = .retry ∧ outcome = .retried change
  | .setUpdated _ change none => (∀ change, ¬ wrote change) ∧ change.kind = .investigation
  | .publishRetry _ change _ => (∀ change, ¬ wrote change) ∧ change.kind = .retry
  | .getForInvestigation change =>
    (∀ change, ¬ wrote change) ∧ ∀ now, (change now).kind = .investigation
  | .setReplayLock _ | .getForReplay _ | .publishReplay .. | .getReplayed .. | .getForRetry _
  | .deleteRecord | .deleteIndex _ => ∀ change, ¬ wrote change

/-- The write a call is about to make: the copy it has read and its change. -/
def pendingWrite : Call → Option (DLQRecord × Change)
  | .setReplayed _ read change _ | .setUpdated read change _ => some (read, change)
  | _ => none

/-- The call has deleted an existing record, or is about to end as one that has. -/
def Deleted : Call → Prop
  | .deleteIndex existed => existed = true
  | .setUpdated _ _ (some outcome) | .indexUpdated _ (some outcome) | .deleteReplayLock outcome
  | .ended outcome => outcome = .deleted true
  | _ => False

end Call

/-- Whenever a write takes effect, the record is still stored and writing the change to it gives
what is written: it agrees with the copy read wherever the change does not overwrite it, and in
its `replay_count` when the change increments that. -/
def FreshWrite (s : Operators) (l : OperatorStep) : Prop :=
  ∀ n now p read change, l = .await n now .ok → s.calls n = some p →
    p.pendingWrite = some (read, change) →
      ∃ current, s.keys.record = some current ∧ change.apply current = change.apply read

structure UpdateInv (r : DLQRecord) (s : Operators) : Prop where
  wrote : ∀ n p, s.calls n = some p → p.Wrote fun change => (n, change) ∈ s.keys.writes
  known : ∀ w ∈ s.keys.writes, (s.calls w.1).isSome
  once : (s.keys.writes.map Prod.fst).Nodup
  stored : ∀ q, s.keys.record = some q → q = applyAll r s.keys.writes
  gone : ∀ n p, s.calls n = some p → p.Deleted → s.keys.record = none

theorem UpdateInv.initial (r : DLQRecord) : UpdateInv r (Operators.init r) := by
  constructor <;> simp [Operators.init, applyAll]

section Step

variable {c : DLQService} {dlqId : String} {r : DLQRecord} {s : Operators} {n : Nat} {p : Call}

/-- A step of call `n` that leaves the record or removes it. -/
theorem UpdateInv.move {k : RecordKeys} (h : UpdateInv r s) (writes : k.writes = s.keys.writes)
    (record : k.record = s.keys.record ∨ k.record = none)
    (wrote : p.Wrote fun change => (n, change) ∈ s.keys.writes)
    (gone : p.Deleted → k.record = none) :
    UpdateInv r ⟨k, Function.update s.calls n (some p)⟩ := by
  constructor
  · intro m q hm
    rcases update_some_cases hm with ⟨rfl, rfl⟩ | ⟨-, hm⟩
    · simpa only [writes] using wrote
    · simpa only [writes] using h.wrote m q hm
  · intro w hw
    by_cases hwn : w.1 = n
    · simp [hwn]
    · simpa [hwn] using h.known w (writes ▸ hw)
  · simpa only [writes] using h.once
  · intro q hq
    rcases record with same | none
    · simpa only [writes] using h.stored q (same ▸ hq)
    · rw [none] at hq
      cases hq
  · intro m q hm hq
    rcases update_some_cases hm with ⟨rfl, rfl⟩ | ⟨-, hm⟩
    · exact gone hq
    · rcases record with same | none
      · exact same.trans (h.gone m q hm hq)
      · exact none

/-- A step of call `n` that writes its change to the stored record. -/
theorem UpdateInv.write {k : RecordKeys} {change : Change} {current : DLQRecord}
    (h : UpdateInv r s) (unwritten : ∀ change, (n, change) ∉ s.keys.writes)
    (was : s.keys.record = some current) (record : k.record = some (change.apply current))
    (writes : k.writes = s.keys.writes ++ [(n, change)])
    (wrote : p.Wrote fun x => (n, x) ∈ k.writes) (kept : ¬ p.Deleted) :
    UpdateInv r ⟨k, Function.update s.calls n (some p)⟩ := by
  constructor
  · intro m q hm
    rcases update_some_cases hm with ⟨rfl, rfl⟩ | ⟨hmn, hm⟩
    · exact wrote
    · simpa [writes, hmn] using h.wrote m q hm
  · intro w hw
    by_cases hwn : w.1 = n
    · simp [hwn]
    · have old : w ∈ s.keys.writes := by
        rcases List.mem_append.mp (writes ▸ hw) with hw | hw
        · exact hw
        · exact absurd (congrArg Prod.fst (List.mem_singleton.mp hw)) hwn
      simpa [hwn] using h.known w old
  · have fresh : ∀ w ∈ s.keys.writes, w.1 ≠ n := by
      intro w hw hwn
      exact unwritten w.2 (hwn ▸ hw)
    rw [writes, List.map_append, List.nodup_append]
    refine ⟨h.once, by simp, ?_⟩
    intro a ha b hb
    obtain ⟨w, hw, rfl⟩ := List.mem_map.mp ha
    rw [List.mem_singleton.mp hb]
    exact fresh w hw
  · intro q hq
    rw [record, Option.some.injEq] at hq
    rw [writes, applyAll_concat, ← h.stored current was, hq]
  · intro m q hm hq
    rcases update_some_cases hm with ⟨rfl, rfl⟩ | ⟨-, hm⟩
    · exact absurd hq kept
    · have missing := h.gone m q hm hq
      rw [was] at missing
      cases missing

theorem UpdateInv.start (h : UpdateInv r s) (new : s.calls n = none) (operation : Operation) :
    UpdateInv r ⟨s.keys, Function.update s.calls n (some operation.call)⟩ := by
  have unwritten : ∀ change, (n, change) ∉ s.keys.writes := by
    intro change hw
    have known := h.known _ hw
    rw [new] at known
    cases known
  refine h.move rfl (Or.inl rfl) ?_ ?_
  · cases operation <;> simp [Operation.call, Call.Wrote, unwritten, Change.kind]
  · cases operation <;> simp [Operation.call, Call.Deleted]

/-- A command that fails changes nothing and leads to the call's end. -/
theorem Call.await_failed (c : DLQService) (dlqId : String) (n : Nat) (now : Int) (k : RecordKeys)
    (p : Call) {reply : Reply} (failed : reply ≠ .ok) :
    (p.await c dlqId n now k reply).2 = k ∧
      ((p.await c dlqId n now k reply).1 = .ended .raised ∨
        (p.await c dlqId n now k reply).1 = .deleteReplayLock .raised ∨
        (p.await c dlqId n now k reply).1 = p) := by
  cases reply with
  | ok => exact absurd rfl failed
  | exception => cases p <;> simp [Call.await]
  | cancelled => cases p <;> simp [Call.await]

theorem UpdateInv.failed (h : UpdateInv r s) (hn : s.calls n = some p) (now : Int) {reply : Reply}
    (failed : reply ≠ .ok) :
    UpdateInv r ⟨(p.await c dlqId n now s.keys reply).2,
      Function.update s.calls n (some (p.await c dlqId n now s.keys reply).1)⟩ := by
  obtain ⟨same, ended | released | stayed⟩ := Call.await_failed c dlqId n now s.keys p failed
  · rw [same, ended]
    exact h.move rfl (Or.inl rfl) trivial (by simp [Call.Deleted])
  · rw [same, released]
    exact h.move rfl (Or.inl rfl) trivial (by simp [Call.Deleted])
  · rw [same, stayed]
    exact h.move rfl (Or.inl rfl) (h.wrote n p hn) (h.gone n p hn)

theorem UpdateInv.succeeded (h : UpdateInv r s) (hn : s.calls n = some p) (now : Int)
    (fresh : ∀ read change, p.pendingWrite = some (read, change) →
      ∃ current, s.keys.record = some current ∧ change.apply current = change.apply read) :
    UpdateInv r ⟨(p.await c dlqId n now s.keys .ok).2,
      Function.update s.calls n (some (p.await c dlqId n now s.keys .ok).1)⟩ := by
  have here := h.wrote n p hn
  cases p with
  | setReplayLock force =>
    simp only [Call.await]
    split
    · exact h.move rfl (Or.inl rfl) here (by simp [Call.Deleted])
    · exact h.move rfl (Or.inl rfl) here (by simp [Call.Deleted])
  | getForReplay force =>
    simp only [Call.await, Call.claimed]
    refine h.move rfl (Or.inl rfl) ?_ ?_
    · repeat' split
      all_goals first | exact here | trivial
    · repeat' split
      all_goals simp [Call.Deleted]
  | publishReplay force q replayedAt message =>
    exact h.move rfl (Or.inl rfl) here (by simp [Call.await, Call.Deleted])
  | getReplayed force replayedAt target =>
    simp only [Call.await, Call.marked]
    refine h.move rfl (Or.inl rfl) ?_ ?_
    · split
      · exact here
      · exact ⟨here, rfl⟩
    · split <;> simp [Call.Deleted]
  | setReplayed force q change replayedAt =>
    obtain ⟨current, was, same⟩ := fresh q change rfl
    refine h.write here.1 was (by simp [Call.await, same]) rfl ?_
      (by simp [Call.await, Call.Deleted])
    exact ⟨change, by simp [Call.await], here.2⟩
  | deleteReplayLock outcome =>
    exact h.move rfl (Or.inl rfl) here fun del => h.gone n _ hn del
  | getForRetry request =>
    simp only [Call.await, Call.retryChecked]
    refine h.move rfl (Or.inl rfl) ?_ ?_
    · repeat' split
      all_goals first | exact here | exact ⟨here, rfl⟩ | trivial
    · repeat' split
      all_goals simp [Call.Deleted]
  | publishRetry q change message =>
    exact h.move rfl (Or.inl rfl) ⟨here.1, here.2, rfl⟩ (by simp [Call.await, Call.Deleted])
  | getForInvestigation change =>
    simp only [Call.await, Call.investigationRead]
    refine h.move rfl (Or.inl rfl) ?_ ?_
    · split
      · exact here.1
      · exact ⟨here.1, here.2 now⟩
    · split <;> simp [Call.Deleted]
  | setUpdated q change outcome =>
    obtain ⟨current, was, same⟩ := fresh q change rfl
    cases outcome with
    | none =>
      refine h.write here.1 was (by simp [Call.await, same]) rfl ?_
        (by simp [Call.await, Call.Deleted])
      exact ⟨change, by simp [Call.await], here.2⟩
    | some outcome =>
      obtain ⟨unwritten, kind, rfl⟩ := here
      refine h.write unwritten was (by simp [Call.await, same]) rfl ?_
        (by simp [Call.await, Call.Deleted])
      exact ⟨by simp [Call.await], kind⟩
  | indexUpdated updated outcome =>
    cases outcome with
    | none => exact h.move rfl (Or.inl rfl) here (by simp [Call.await, Call.Deleted])
    | some outcome =>
      exact h.move rfl (Or.inl rfl) here fun del => h.gone n _ hn del
  | getDetail => exact h.move rfl (Or.inl rfl) here (by simp [Call.await, Call.Deleted])
  | deleteRecord => exact h.move rfl (Or.inr rfl) here fun _ => rfl
  | deleteIndex existed =>
    refine h.move rfl (Or.inl rfl) here fun del => h.gone n _ hn ?_
    simpa [Call.await, Call.Deleted] using del
  | ended outcome => exact h.move rfl (Or.inl rfl) here (h.gone n _ hn)

theorem UpdateInv.next (h : UpdateInv r s) {t : Operators} {l : OperatorStep}
    (fresh : FreshWrite s l) (hs : (operators c dlqId).next s l = some t) : UpdateInv r t := by
  cases l with
  | start n operation =>
    simp only [operators, Option.ite_none_right_eq_some, Option.some.injEq] at hs
    obtain ⟨new, rfl⟩ := hs
    exact h.start (Option.isNone_iff_eq_none.mp new) operation
  | await n now reply =>
    obtain ⟨p, hn, rfl⟩ := Option.map_eq_some_iff.mp hs
    by_cases ok : reply = .ok
    · subst ok
      exact h.succeeded hn now fun read change => fresh n now p read change rfl hn
    · exact h.failed hn now ok
  | lockExpires =>
    cases hs
    exact ⟨h.wrote, h.known, h.once, h.stored, h.gone⟩

end Step

/-! ## No update is lost -/

def completedReplays (s : Operators) : Set Nat :=
  {n | ∃ result, s.calls n = some (.ended (.replayed result))}

/-- Every started call has ended, and none by an exception of a command. -/
def Settled (s : Operators) : Prop :=
  ∀ n p, s.calls n = some p → ∃ outcome, p = .ended outcome ∧ outcome ≠ .raised

/-- The record finally reflects the completed operations. -/
structure UpdatesKept (r : DLQRecord) (s : Operators) : Prop where
  completed : ∀ n outcome, s.calls n = some (.ended outcome) →
    outcome.Wrote fun change => (n, change) ∈ s.keys.writes
  once : (s.keys.writes.map Prod.fst).Nodup
  reflected : ∀ q, s.keys.record = some q → ∀ before w after,
    s.keys.writes = before ++ w :: after → (∀ v ∈ after, v.2.kind ≠ w.2.kind) → w.2.Reflected q
  counted : ∀ q, s.keys.record = some q → Settled s →
    q.replayCount = r.replayCount + (completedReplays s).ncard
  deleted : ∀ n, s.calls n = some (.ended (.deleted true)) → s.keys.record = none

theorem UpdateInv.completedReplays_eq {r : DLQRecord} {s : Operators} (h : UpdateInv r s)
    (settled : Settled s) : completedReplays s =
      {n | n ∈ (s.keys.writes.filter fun w => w.2.kind = .replay).map Prod.fst} := by
  ext n
  simp only [Set.mem_ofPred_eq, List.mem_map, List.mem_filter, decide_eq_true_eq, completedReplays]
  constructor
  · rintro ⟨result, hn⟩
    obtain ⟨change, hw, kind⟩ := h.wrote n _ hn
    exact ⟨(n, change), ⟨hw, kind⟩, rfl⟩
  · rintro ⟨⟨m, change⟩, ⟨hw, kind⟩, rfl⟩
    obtain ⟨p, hp⟩ := Option.isSome_iff_exists.mp (h.known _ hw)
    obtain ⟨outcome, rfl, noError⟩ := settled m p hp
    have wrote := h.wrote m _ hp
    -- Two writes of one call are the same write.
    have same : ∀ x, (m, x) ∈ s.keys.writes → x = change := by
      intro x hx
      exact congrArg Prod.snd (List.inj_on_of_nodup_map h.once hx hw rfl)
    cases outcome with
    | replayed result => exact ⟨result, hp⟩
    | retried x =>
      rw [← same x wrote.1, wrote.2] at kind
      cases kind
    | detail record =>
      obtain ⟨x, hx, other⟩ := wrote
      rw [← same x hx, other] at kind
      cases kind
    | raised => exact absurd rfl noError
    | notFound | deleted _ | replayConflict _ | rejected _ => exact absurd hw (wrote change)

theorem UpdateInv.counted {r : DLQRecord} {s : Operators} (h : UpdateInv r s)
    {q : DLQRecord} (hq : s.keys.record = some q) (settled : Settled s) :
    q.replayCount = r.replayCount + (completedReplays s).ncard := by
  have nodup : ((s.keys.writes.filter fun w => w.2.kind = .replay).map Prod.fst).Nodup :=
    h.once.sublist (List.filter_sublist.map _)
  rw [h.stored q hq, applyAll_replayCount, h.completedReplays_eq settled, ← List.coe_toFinset,
    Set.ncard_coe_finset, List.toFinset_card_of_nodup nodup, List.length_map]

/-- In every run whose writes are fresh, no update of a completed operation is lost. -/
theorem completed_updates_are_kept (c : DLQService) (dlqId : String) (r : DLQRecord)
    (ls : List OperatorStep) (s : Operators)
    (along : (operators c dlqId).Along FreshWrite (Operators.init r) ls)
    (run : (operators c dlqId).exec (Operators.init r) ls = some s) : UpdatesKept r s := by
  have h : UpdateInv r s :=
    Machine.invariant_along (fun _ _ _ h fresh hs => h.next fresh hs) (UpdateInv.initial r) along
      run
  refine ⟨fun n outcome hn => h.wrote n _ hn, h.once, ?_, fun q => h.counted, fun n hn => ?_⟩
  · intro q hq before w after hw last
    rw [h.stored q hq, hw]
    exact applyAll_reflected r before after w last
  · exact h.gone n _ hn rfl

/-- One call marks the record investigated while another, which has read it before, retries the
task and writes its copy back. -/
theorem interleaved_retry_loses_investigation :
    ¬ ∀ (ls : List OperatorStep) (s : Operators),
      (operators plainService "d").exec (.init deadLettered) ls = some s →
        UpdatesKept deadLettered s := by
  intro h
  have kept := h [.start 0 (.retryFailedTask ⟨none, .none, none, none⟩),
    .start 1 (.markFailedTaskInvestigated none none), .await 0 1 .ok, .await 0 2 .ok,
    .await 1 3 .ok, .await 1 4 .ok, .await 1 5 .ok, .await 1 6 .ok, .await 0 7 .ok,
    .await 0 8 .ok] _ rfl
  have investigated := kept.reflected _ rfl []
    (1, .investigated 3 "operator" none) [(0, .retried 1 "operator" (some "t") "tasks" none)] rfl
    (by simp [Change.kind])
  exact absurd investigated.1 (by decide)

/-- One call replays the message; between its first and its second reading of the record another
marks it investigated. -/
def replayAndInvestigation : List OperatorStep :=
  [.start 0 (.replayMessage false), .start 1 (.markFailedTaskInvestigated none none),
    .await 0 1 .ok, .await 0 2 .ok, .await 1 3 .ok, .await 1 4 .ok, .await 0 5 .ok, .await 0 6 .ok,
    .await 1 7 .ok, .await 0 8 .ok, .await 1 9 .ok, .await 0 10 .ok]

theorem completed_updates_are_kept_in_replayAndInvestigation :
    ∃ s, (operators plainService "d").exec (.init deadLettered) replayAndInvestigation = some s ∧
      s.keys.writes.map Prod.fst = [1, 0] ∧
      s.keys.record.map DLQRecord.replayCount = some 1 ∧
      s.keys.record.map DLQRecord.investigatedBy = some (some "operator") ∧
      UpdatesKept deadLettered s := by
  refine ⟨_, rfl, rfl, rfl, rfl, ?_⟩
  refine completed_updates_are_kept plainService "d" deadLettered replayAndInvestigation _ ?_ rfl
  have start (s : Operators) (n : Nat) (operation : Operation) :
      FreshWrite s (.start n operation) := by
    intro m now p read change hl
    cases hl
  have fresh (s : Operators) (n : Nat) (now : Int) (same : ∀ read change,
      (s.calls n).bind Call.pendingWrite = some (read, change) → s.keys.record = some read) :
      FreshWrite s (.await n now .ok) := by
    rintro m now' p read change hl hn hp
    cases hl
    exact ⟨read, same read change (by rw [hn]; exact hp), rfl⟩
  refine .cons (start _ _ _) rfl <| .cons (start _ _ _) rfl <|
    .cons (fresh _ _ _ ?_) rfl <| .cons (fresh _ _ _ ?_) rfl <|
    .cons (fresh _ _ _ ?_) rfl <| .cons (fresh _ _ _ ?_) rfl <|
    .cons (fresh _ _ _ ?_) rfl <| .cons (fresh _ _ _ ?_) rfl <|
    .cons (fresh _ _ _ ?_) rfl <| .cons (fresh _ _ _ ?_) rfl <|
    .cons (fresh _ _ _ ?_) rfl <| .cons (fresh _ _ _ ?_) rfl trivial
  all_goals
    rintro read change ⟨⟩
  all_goals rfl

end Relayna.Dlq
