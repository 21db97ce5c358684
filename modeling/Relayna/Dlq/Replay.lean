import Relayna.Dlq.Service

/-!
# Unforced replays of one record

Any number of `replay_message(dlq_id, force=False)` calls, with no command failing and the lock
not expiring. Whoever holds the lock is the only call between its claim and its release, the
record is marked replayed before the release, and a later claim finds the mark.
-/
namespace Relayna.Dlq

open Python Storage Transition

namespace Call

/-- From a successful `SET NX` of the lock to its delete. -/
def Holds : Call → Prop
  | .getForReplay _ | .publishReplay .. | .getReplayed .. | .setReplayed .. | .deleteReplayLock _ =>
    True
  | _ => False

/-- The message is out and the record is not marked yet. -/
def Marking : Call → Prop
  | .getReplayed .. | .setReplayed .. => True
  | _ => False

/-- What a call of an unforced replay can be at, given whether it has published. -/
def Unforced (r : DLQRecord) (published : Prop) : Call → Prop
  | .setReplayLock force | .getForReplay force => force = false ∧ ¬ published
  | .publishReplay .. => ¬ published
  | .getReplayed .. => published
  | .setReplayed _ read change _ =>
    published ∧ (change.apply read).state = .replayed ∧
      (change.apply read).rawBodyB64 = r.rawBodyB64
  | .deleteReplayLock outcome | .ended outcome =>
    published ∨ ∃ inProgress, outcome = .replayConflict inProgress
  | _ => False

end Call

structure ReplayInv (r : DLQRecord) (s : Operators) : Prop where
  holder : ∀ n p, s.calls n = some p → p.Holds → s.keys.lock = some n
  unforced : ∀ n p, s.calls n = some p → p.Unforced r (n ∈ s.keys.sent.map Prod.fst)
  first : ∀ n f q t m, s.calls n = some (.publishReplay f q t m) → s.keys.sent = []
  once : s.keys.sent.length ≤ 1
  known : ∀ x ∈ s.keys.sent, (s.calls x.1).isSome
  marked : ∀ x ∈ s.keys.sent, (∃ q, s.keys.record = some q ∧ q.state = .replayed) ∨
    ∃ p, s.calls x.1 = some p ∧ p.Marking
  body : ∃ q, s.keys.record = some q ∧ q.rawBodyB64 = r.rawBodyB64

theorem ReplayInv.initial (r : DLQRecord) : ReplayInv r (Operators.init r) := by
  constructor <;> simp [Operators.init]

/-- The step of call `n` to `p` keeps the invariant if it does so for that call, moves the lock
only where no other call holds it, and publishes only as the holder. -/
theorem ReplayInv.move {r : DLQRecord} {s : Operators} {n : Nat} {p : Call} {k : RecordKeys}
    (h : ReplayInv r s)
    (hold : p.Holds → k.lock = some n)
    (lock : k.lock = s.keys.lock ∨ s.keys.lock = some n ∨ s.keys.lock = none)
    (sent : k.sent = s.keys.sent ∨
      s.keys.lock = some n ∧ s.keys.sent = [] ∧ ∃ m, k.sent = [(n, m)])
    (unforced : p.Unforced r (n ∈ k.sent.map Prod.fst))
    (first : ∀ f q t m, p = .publishReplay f q t m → k.sent = [])
    (record : k.record = s.keys.record ∨
      ∃ q, k.record = some q ∧ q.state = .replayed ∧ q.rawBodyB64 = r.rawBodyB64)
    (marked : n ∈ k.sent.map Prod.fst →
      (∃ q, k.record = some q ∧ q.state = .replayed) ∨ p.Marking) :
    ReplayInv r ⟨k, Function.update s.calls n (some p)⟩ := by
  have lonely : ∀ m q, m ≠ n → s.calls m = some q → q.Holds → s.keys.lock ≠ some n := by
    intro m q hmn hm hq hl
    have := (h.holder m q hm hq).symm.trans hl
    exact hmn (Option.some.inj this)
  have old : ∀ x ∈ k.sent, x.1 ≠ n → x ∈ s.keys.sent := by
    intro x hx hxn
    rcases sent with same | ⟨-, -, msg, one⟩
    · exact same ▸ hx
    · rw [one, List.mem_singleton] at hx
      exact absurd (congrArg Prod.fst hx) hxn
  constructor
  · intro m q hm hq
    rcases update_some_cases hm with ⟨rfl, rfl⟩ | ⟨hmn, hm⟩
    · exact hold hq
    · have held := h.holder m q hm hq
      rcases lock with same | mine | free
      · exact same.trans held
      · exact absurd mine (lonely m q hmn hm hq)
      · rw [free] at held
        cases held
  · intro m q hm
    rcases update_some_cases hm with ⟨rfl, rfl⟩ | ⟨hmn, hm⟩
    · exact unforced
    · have before := h.unforced m q hm
      rcases sent with same | ⟨-, empty, msg, one⟩
      · simpa only [same] using before
      · simpa [empty, one, hmn] using before
  · intro m f q t msg hm
    rcases update_some_cases hm with ⟨rfl, hp⟩ | ⟨hmn, hm⟩
    · exact first f q t msg hp.symm
    · rcases sent with same | ⟨mine, -, -⟩
      · exact same.trans (h.first m f q t msg hm)
      · exact absurd mine (lonely m _ hmn hm trivial)
  · rcases sent with same | ⟨-, -, msg, one⟩
    · simpa only [same] using h.once
    · simp [one]
  · intro x hx
    by_cases hxn : x.1 = n
    · simp [hxn]
    · simpa [hxn] using h.known x (old x hx hxn)
  · intro x hx
    by_cases hxn : x.1 = n
    · rcases marked (hxn ▸ List.mem_map_of_mem hx) with done | hp
      · exact Or.inl done
      · exact Or.inr ⟨p, by simp [hxn], hp⟩
    · rcases h.marked x (old x hx hxn) with done | ⟨q, hq, hm⟩
      · rcases record with same | ⟨q, hq, hs, -⟩
        · exact Or.inl (by simpa only [same] using done)
        · exact Or.inl ⟨q, hq, hs⟩
      · exact Or.inr ⟨q, by simpa [hxn] using hq, hm⟩
  · rcases record with same | ⟨q, hq, -, hb⟩
    · simpa only [same] using h.body
    · exact ⟨q, hq, hb⟩

/-- Only unforced replays start, every command succeeds and the lock does not expire. -/
def UnforcedReplay : OperatorStep → Prop
  | .start _ operation => operation = .replayMessage false
  | .await _ _ reply => reply = .ok
  | .lockExpires => False

section Step

variable {c : DLQService} {dlqId : String} {r : DLQRecord} {s : Operators} {n : Nat}

theorem ReplayInv.start (h : ReplayInv r s) (new : s.calls n = none) :
    ReplayInv r ⟨s.keys, Function.update s.calls n (some (.setReplayLock false))⟩ := by
  have unsent : n ∉ s.keys.sent.map Prod.fst := by
    intro hmem
    obtain ⟨x, hx, rfl⟩ := List.mem_map.mp hmem
    have known := h.known x hx
    rw [new] at known
    cases known
  refine h.move (by simp [Call.Holds]) (Or.inl rfl) (Or.inl rfl) ⟨rfl, unsent⟩ (by simp)
    (Or.inl rfl) ?_
  exact fun hmem => absurd hmem unsent

/-- A call that has published and is past the marking has left the record marked. -/
theorem ReplayInv.marked_of_sent (h : ReplayInv r s) {p : Call} (hn : s.calls n = some p)
    (past : ¬ p.Marking) (sent : n ∈ s.keys.sent.map Prod.fst) :
    ∃ q, s.keys.record = some q ∧ q.state = .replayed := by
  obtain ⟨x, hx, rfl⟩ := List.mem_map.mp sent
  rcases h.marked x hx with done | ⟨p', hp', hm⟩
  · exact done
  · rw [hn] at hp'
    exact absurd (Option.some.inj hp' ▸ hm) past

/-- The `GET` of `claim_replay`: whoever sees an unreplayed record is the first to publish. -/
theorem ReplayInv.claimed (h : ReplayInv r s) {body : Bytes}
    (built : r.rawBodyB64 = b64encode body) (hn : s.calls n = some (.getForReplay false))
    (now : Int) :
    ReplayInv r ⟨s.keys,
      Function.update s.calls n (some (Call.claimed c false now s.keys.record))⟩ := by
  have mine : s.keys.lock = some n := h.holder n _ hn trivial
  obtain ⟨-, unsent⟩ := h.unforced n _ hn
  obtain ⟨q, hq, hb⟩ := h.body
  obtain ⟨msg, hmsg⟩ : ∃ msg, c.replayPublication q now = some msg := by
    simp [DLQService.replayPublication, hb, built, b64decode_b64encode]
  by_cases replayed : q.state = .replayed
  · have hp : Call.claimed c false now s.keys.record =
        .deleteReplayLock (.replayConflict false) := by
      simp [hq, Call.claimed, replayed]
    rw [hp]
    exact h.move (fun _ => mine) (Or.inl rfl) (Or.inl rfl) (Or.inr ⟨false, rfl⟩) (by simp)
      (Or.inl rfl) fun hmem => absurd hmem unsent
  · have hp : Call.claimed c false now s.keys.record = .publishReplay false q now msg := by
      simp [hq, Call.claimed, replayed, hmsg]
    have empty : s.keys.sent = [] := by
      refine List.eq_nil_iff_forall_not_mem.mpr fun x hx => ?_
      rcases h.marked x hx with ⟨q', hq', hs⟩ | ⟨p, hx', hm⟩
      · rw [hq] at hq'
        exact replayed (Option.some.inj hq' ▸ hs)
      · have theirs : s.keys.lock = some x.1 := by
          refine h.holder x.1 p hx' ?_
          cases p <;> simp_all [Call.Marking, Call.Holds]
        have hxn : x.1 = n := Option.some.inj (theirs.symm.trans mine)
        exact unsent (hxn ▸ List.mem_map_of_mem hx)
    rw [hp]
    exact h.move (fun _ => mine) (Or.inl rfl) (Or.inl rfl) unsent (fun _ _ _ _ _ => empty)
      (Or.inl rfl) fun hmem => absurd hmem unsent

theorem ReplayInv.await (h : ReplayInv r s) {body : Bytes} (built : r.rawBodyB64 = b64encode body)
    {p : Call} (hn : s.calls n = some p) (now : Int) :
    ReplayInv r ⟨(p.await c dlqId n now s.keys .ok).2,
      Function.update s.calls n (some (p.await c dlqId n now s.keys .ok).1)⟩ := by
  have here := h.unforced n p hn
  cases p with
  | setReplayLock force =>
    obtain ⟨rfl, unsent⟩ := here
    cases hl : s.keys.lock with
    | none =>
      simp only [Call.await, hl, Option.isNone_none, if_true]
      exact h.move (fun _ => rfl) (Or.inr (Or.inr hl)) (Or.inl rfl) ⟨rfl, unsent⟩ (by simp)
        (Or.inl rfl) fun hmem => absurd hmem unsent
    | some m =>
      simp only [Call.await, hl, Option.isNone_some, Bool.false_eq_true, if_false]
      exact h.move (by simp [Call.Holds]) (Or.inl rfl) (Or.inl rfl) (Or.inr ⟨true, rfl⟩) (by simp)
        (Or.inl rfl) fun hmem => absurd hmem unsent
  | getForReplay force =>
    obtain ⟨rfl, -⟩ := here
    exact h.claimed built hn now
  | publishReplay force q replayedAt msg =>
    have mine := h.holder n _ hn trivial
    have empty := h.first n _ _ _ _ hn
    refine h.move (fun _ => mine) (Or.inl rfl) (Or.inr ⟨mine, empty, msg, ?_⟩) ?_
      (by simp [Call.await]) (Or.inl rfl) fun _ => Or.inr trivial
    · simp [Call.await, empty]
    · simp [Call.await, Call.Unforced, empty]
  | getReplayed force replayedAt target =>
    have mine := h.holder n _ hn trivial
    obtain ⟨q, hq, hb⟩ := h.body
    simp only [Call.await, Call.marked, hq]
    refine h.move (fun _ => mine) (Or.inl rfl) (Or.inl rfl) ⟨here, rfl, hb⟩ (by simp) (Or.inl rfl)
      fun _ => Or.inr trivial
  | setReplayed force q change replayedAt =>
    have mine := h.holder n _ hn trivial
    obtain ⟨published, replayed, hb⟩ := here
    exact h.move (fun _ => mine) (Or.inl rfl) (Or.inl rfl) (Or.inl published) (by simp [Call.await])
      (Or.inr ⟨_, rfl, replayed, hb⟩) fun _ => Or.inl ⟨_, rfl, replayed⟩
  | deleteReplayLock outcome =>
    have mine := h.holder n _ hn trivial
    refine h.move (by simp [Call.await, Call.Holds]) (Or.inr (Or.inl mine)) (Or.inl rfl) here
      (by simp [Call.await]) (Or.inl rfl) fun sent => ?_
    exact Or.inl (h.marked_of_sent hn (by simp [Call.Marking]) sent)
  | ended outcome =>
    refine h.move (by simp [Call.await, Call.Holds]) (Or.inl rfl) (Or.inl rfl) here
      (by simp [Call.await]) (Or.inl rfl) fun sent => ?_
    exact Or.inl (h.marked_of_sent hn (by simp [Call.Marking]) sent)
  | _ => exact absurd here (by simp [Call.Unforced])

theorem ReplayInv.next (h : ReplayInv r s) {body : Bytes} (built : r.rawBodyB64 = b64encode body)
    {t : Operators} {l : OperatorStep} (ok : UnforcedReplay l)
    (hs : (operators c dlqId).next s l = some t) : ReplayInv r t := by
  cases l with
  | start n operation =>
    simp only [operators, Option.ite_none_right_eq_some, Option.some.injEq] at hs
    obtain ⟨new, rfl⟩ := hs
    cases ok
    exact h.start (Option.isNone_iff_eq_none.mp new)
  | await n now reply =>
    obtain ⟨p, hn, rfl⟩ := Option.map_eq_some_iff.mp hs
    cases ok
    exact h.await built hn now
  | lockExpires => cases ok

end Step

/-- However the calls interleave, at most one message is published; a call that ends without
having published raised `DLQReplayConflict`; a call about to delete the lock holds it; and every
call that keeps running ends. -/
theorem unforced_replay_at_most_once (c : DLQService) (dlqId : String) (r : DLQRecord)
    (body : Bytes) (built : r.rawBodyB64 = b64encode body) (ls : List OperatorStep)
    (s : Operators) (only : ∀ l ∈ ls, UnforcedReplay l)
    (run : (operators c dlqId).exec (Operators.init r) ls = some s) :
    s.keys.sent.length ≤ 1 ∧
    (∀ n outcome, s.calls n = some (.ended outcome) → n ∉ s.keys.sent.map Prod.fst →
      ∃ inProgress, outcome = .replayConflict inProgress) ∧
    (∀ n outcome, s.calls n = some (.deleteReplayLock outcome) → s.keys.lock = some n) ∧
    ∀ n p, s.calls n = some p → ∃ nows : List Int, ∃ t outcome,
      (operators c dlqId).exec s (nows.map fun now => .await n now .ok) = some t ∧
        t.calls n = some (.ended outcome) := by
  have h : ReplayInv r s :=
    Machine.invariant_along (fun _ _ _ h ok hs => h.next built ok hs) (ReplayInv.initial r)
      (Machine.Along.of_forall only _) run
  refine ⟨h.once, ?_, ?_, ?_⟩
  · intro n outcome hn unsent
    rcases h.unforced n _ hn with sent | conflict
    · exact absurd sent unsent
    · exact conflict
  · intro n outcome hn
    exact h.holder n _ hn trivial
  · intro n p hn
    exact operators_call_ends c dlqId hn

def plainService : DLQService where
  text := plainText
  isoformat _ := "1970-01-01T00:00:00+00:00"
  encodeTransportJson _ := none

/-- A freshly dead-lettered record. -/
def deadLettered : DLQRecord where
  dlqId := "d"
  sourceQueueName := "tasks"
  retryQueueName := "tasks.retry"
  taskId := some "t"
  correlationId := none
  headers _ := none
  contentType := none
  rawBodyB64 := b64encode [77, 97]
  deadLetteredAt := 0
  failedAt := none
  status := "DLQ"
  payloadAvailable := true
  state := .deadLettered
  replayCount := 0
  replayedAt := none
  replayTargetQueueName := none
  investigationStatus := .unreviewed
  investigatedAt := none
  investigatedBy := none
  investigationNote := none
  retryStatus := .notRetried
  retriedAt := none
  retriedBy := none
  retriedTaskId := none
  retryTargetQueue := none
  retryNote := none

/-- The second call claims while the first is publishing, the third after its release. -/
def threeReplays : List OperatorStep :=
  [.start 0 (.replayMessage false), .start 1 (.replayMessage false), .await 0 1 .ok, .await 0 2 .ok,
    .await 1 3 .ok, .await 0 4 .ok, .await 0 5 .ok, .await 0 6 .ok, .await 0 7 .ok,
    .start 2 (.replayMessage false), .await 2 8 .ok, .await 2 9 .ok, .await 2 10 .ok]

theorem unforced_replay_at_most_once_of_three :
    ∃ s, (operators plainService "d").exec (.init deadLettered) threeReplays = some s ∧
      s.keys.sent.map Prod.fst = [0] ∧ s.keys.sent.length ≤ 1 ∧
      s.calls 2 = some (.ended (.replayConflict false)) := by
  refine ⟨_, rfl, rfl, ?_, rfl⟩
  refine (unforced_replay_at_most_once plainService "d" deadLettered [77, 97] rfl threeReplays _
    ?_ rfl).1
  simp [threeReplays, UnforcedReplay]

end Relayna.Dlq
