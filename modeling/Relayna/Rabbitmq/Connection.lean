import Relayna.Foundation.Transition
import Relayna.Storage.Keys

/-!
# The connection of the RabbitMQ client

`initialize` and `close` of `RelaynaRabbitClient` run under one lock, so one of them is under
way at a time; it is suspended at its awaits, and each await succeeds or raises. `initialize`
assigns its fields one by one and marks the client ready in its last line. When it raises after
the connect, the client keeps the connection and is not ready: the next `initialize` connects
again and puts the new connection in the place of the old one, which nobody closes.

Connections are numbered in the order in which they are opened. `live` is history: the
connections that the client has opened and not closed. A robust connection that is lost is opened
again by itself, so it stays in `live` until the client closes it.
-/
namespace Relayna.Rabbitmq

open Transition Storage

/-- The await at which the call that holds the lock is suspended. -/
inductive Awaiting where
  | nothing
  | connect
  | channel
  | setQos
  | declareExchanges
  | declareQueues
  | closeConnection (id : Nat)
  deriving DecidableEq, Repr

structure RelaynaRabbitClient where
  connection : Option Nat
  channel : Bool
  tasksExchange : Bool
  workflowExchange : Bool
  statusExchange : Bool
  initialized : Bool
  awaiting : Awaiting
  opened : Nat
  live : List Nat
  deriving DecidableEq, Repr

namespace RelaynaRabbitClient

def init : RelaynaRabbitClient := ⟨none, false, false, false, false, false, .nothing, 0, []⟩

/-- `initialize` up to its first await. -/
def initializeClient (s : RelaynaRabbitClient) : RelaynaRabbitClient :=
  if s.initialized then s else { s with awaiting := .connect }

/-- `_ensure_ready`. -/
def ensureReady (s : RelaynaRabbitClient) : RelaynaRabbitClient :=
  if !s.initialized then s.initializeClient else s

/-- The end of `close`. -/
def clear (s : RelaynaRabbitClient) : RelaynaRabbitClient :=
  { s with
    connection := none
    channel := false
    tasksExchange := false
    workflowExchange := false
    statusExchange := false
    awaiting := .nothing }

/-- `close` up to its first await. -/
def close (s : RelaynaRabbitClient) : RelaynaRabbitClient :=
  let t := { s with initialized := false }
  match t.connection with
  | some id => if id ∈ t.live then { t with awaiting := .closeConnection id } else t.clear
  | none => t.clear

/-- What follows the await when it has succeeded. The topology has a workflow exchange or not. -/
def resume (workflow : Bool) (s : RelaynaRabbitClient) : RelaynaRabbitClient :=
  match s.awaiting with
  | .nothing => s
  | .connect =>
    { s with
      connection := some s.opened
      opened := s.opened + 1
      live := s.opened :: s.live
      awaiting := .channel }
  | .channel => { s with channel := true, awaiting := .setQos }
  | .setQos => { s with awaiting := .declareExchanges }
  | .declareExchanges =>
    { s with
      tasksExchange := true
      statusExchange := true
      workflowExchange := workflow
      awaiting := .declareQueues }
  | .declareQueues => { s with initialized := true, awaiting := .nothing }
  | .closeConnection id => { s with live := s.live.erase id }.clear

inductive Step where
  | callInitialize
  | callEnsureReady
  | callClose
  /-- The await succeeds or raises; what it raises leaves the call. -/
  | reply (r : Reply)
  deriving DecidableEq, Repr

def machine (workflow : Bool) : Machine RelaynaRabbitClient Step where
  next s l := match l with
    | .callInitialize => if s.awaiting = .nothing then some s.initializeClient else none
    | .callEnsureReady => if s.awaiting = .nothing then some s.ensureReady else none
    | .callClose => if s.awaiting = .nothing then some s.close else none
    | .reply r =>
      if s.awaiting = .nothing then none
      else if r = .ok then some (s.resume workflow)
      else some { s with awaiting := .nothing }

/-- A call of `initialize` that goes on to connect finds no connection of an earlier one open. -/
def Fresh (s : RelaynaRabbitClient) (l : Step) : Prop :=
  l = .callInitialize ∨ l = .callEnsureReady → s.initialized = false →
    ∀ id, s.connection = some id → id ∉ s.live

instance (s : RelaynaRabbitClient) (l : Step) : Decidable (Fresh s l) := by
  unfold Fresh
  infer_instance

/-- The step by which a call of `close` returns. -/
def CloseReturns (s : RelaynaRabbitClient) (l : Step) : Prop :=
  (l = .callClose ∧ s.close.awaiting = .nothing) ∨
    (l = .reply .ok ∧ ∃ id, s.awaiting = .closeConnection id)

/-- No connection is open after a `close` that returns. -/
def ClosesAll (workflow : Bool) (s : RelaynaRabbitClient) (l : Step) : Prop :=
  CloseReturns s l → ∀ t, (machine workflow).next s l = some t → t.live = []

/-- The open connection is the client's, and there is none while it connects. -/
structure Owned (s : RelaynaRabbitClient) : Prop where
  connection : ∀ id ∈ s.live, s.connection = some id
  nodup : s.live.Nodup
  connecting : s.awaiting = .connect → s.live = []
  closing : ∀ id, s.awaiting = .closeConnection id → s.connection = some id

variable {s t : RelaynaRabbitClient} {workflow : Bool} {l : Step} {ls : List Step}

theorem owned_init : Owned init := by
  constructor <;> simp [init]

theorem Owned.length_le (h : Owned s) : s.live.length ≤ 1 := by
  cases hl : s.live with
  | nil => simp
  | cons id rest =>
    cases rest with
    | nil => simp
    | cons other rest =>
      have first := h.connection id (by simp [hl])
      have second := h.connection other (by simp [hl])
      have nodup := h.nodup
      rw [hl] at nodup
      simp [Option.some.inj (first.symm.trans second)] at nodup

theorem Owned.erase_eq_nil (h : Owned s) {id : Nat} (hc : s.connection = some id) :
    s.live.erase id = [] := by
  refine List.eq_nil_iff_forall_not_mem.mpr fun other ho => ?_
  have open' := (h.nodup.mem_erase_iff.mp ho)
  exact open'.1 (Option.some.inj ((h.connection other open'.2).symm.trans hc))

theorem Owned.of_fresh (h : Owned s) (free : ∀ id, s.connection = some id → id ∉ s.live) :
    s.live = [] :=
  List.eq_nil_iff_forall_not_mem.mpr fun id hid => free id (h.connection id hid) hid

/-- With nothing open, the client may be in any state. -/
theorem owned_of_live_eq_nil (hl : s.live = [])
    (closing : ∀ id, s.awaiting = .closeConnection id → s.connection = some id) : Owned s := by
  constructor <;> simp_all

theorem Owned.initializeClient (h : Owned s)
    (fresh : s.initialized = false → ∀ id, s.connection = some id → id ∉ s.live) :
    Owned s.initializeClient := by
  unfold RelaynaRabbitClient.initializeClient
  split
  · exact h
  · rename_i ready
    exact owned_of_live_eq_nil (h.of_fresh (fresh (by simpa using ready))) (by simp)

theorem Owned.clear (hl : s.live = []) : Owned s.clear :=
  owned_of_live_eq_nil hl (by simp [RelaynaRabbitClient.clear])

/-- `close` awaits the end of the open connection, or there is none. -/
theorem Owned.close_cases (h : Owned s) :
    (∃ id, s.connection = some id ∧
      s.close = { s with initialized := false, awaiting := .closeConnection id }) ∨
      s.live = [] ∧ s.close = { s with initialized := false }.clear := by
  unfold RelaynaRabbitClient.close
  cases hc : s.connection with
  | none => exact Or.inr ⟨h.of_fresh (by simp [hc]), by simp⟩
  | some id =>
    by_cases live : id ∈ s.live
    · exact Or.inl ⟨id, rfl, by simp [live]⟩
    · refine Or.inr ⟨h.of_fresh fun other ho => ?_, by simp [live]⟩
      exact Option.some.inj (hc.symm.trans ho) ▸ live

theorem Owned.close (h : Owned s) : Owned s.close := by
  obtain ⟨id, hc, closing⟩ | ⟨none, cleared⟩ := h.close_cases
  · rw [closing]
    refine ⟨h.connection, h.nodup, by simp, fun other awaiting => ?_⟩
    exact Awaiting.closeConnection.inj awaiting ▸ hc
  · rw [cleared]
    exact .clear none

theorem Owned.resume (h : Owned s) : Owned (s.resume workflow) := by
  unfold RelaynaRabbitClient.resume
  cases ha : s.awaiting with
  | nothing => exact h
  | connect =>
    have none := h.connecting ha
    constructor <;> simp [none]
  | closeConnection id => exact .clear (h.erase_eq_nil (h.closing id ha))
  | _ => exact ⟨h.connection, h.nodup, by simp, by simp⟩

theorem Owned.step (h : Owned s) (fresh : Fresh s l) (hs : (machine workflow).next s l = some t) :
    Owned t := by
  cases l with
  | callInitialize =>
    obtain ⟨-, hs⟩ := Option.ite_none_right_eq_some.mp hs
    exact Option.some.inj hs ▸ h.initializeClient (fresh (Or.inl rfl))
  | callEnsureReady =>
    obtain ⟨-, hs⟩ := Option.ite_none_right_eq_some.mp hs
    obtain rfl := Option.some.inj hs
    unfold ensureReady
    split
    · exact h.initializeClient (fresh (Or.inr rfl))
    · exact h
  | callClose =>
    obtain ⟨-, hs⟩ := Option.ite_none_right_eq_some.mp hs
    exact Option.some.inj hs ▸ h.close
  | reply r =>
    obtain ⟨-, hs⟩ := Option.ite_none_left_eq_some.mp hs
    split at hs
    · obtain rfl := Option.some.inj hs
      exact h.resume
    · obtain rfl := Option.some.inj hs
      exact ⟨h.connection, h.nodup, by simp, by simp⟩

theorem Owned.closesAll (h : Owned s) : ClosesAll workflow s l := by
  rintro (⟨rfl, returned⟩ | ⟨rfl, id, closing⟩) t hs
  · obtain ⟨-, hs⟩ := Option.ite_none_right_eq_some.mp hs
    obtain rfl := Option.some.inj hs
    obtain ⟨id, -, closing⟩ | ⟨none, cleared⟩ := h.close_cases
    · simp [closing] at returned
    · rw [cleared]
      exact none
  · obtain rfl : s.resume workflow = t := by simpa [machine, closing] using hs
    unfold RelaynaRabbitClient.resume
    rw [closing]
    exact h.erase_eq_nil (h.closing id closing)

/-- As long as no `initialize` connects over an open connection, at most one connection is open
and `close` leaves none. -/
theorem one_connection (fresh : (machine workflow).Along Fresh init ls)
    (run : (machine workflow).exec init ls = some t) :
    t.live.length ≤ 1 ∧ (machine workflow).Along (ClosesAll workflow) init ls := by
  have step : ∀ s l t, Owned s → Fresh s l → (machine workflow).next s l = some t → Owned t :=
    fun _ _ _ h fresh hs => h.step fresh hs
  refine ⟨(Machine.invariant_along step owned_init fresh run).length_le, ?_⟩
  exact Machine.Along.of_invariant step (fun _ _ h _ => h.closesAll) owned_init fresh

/-- The channel cannot be opened; the client is closed and used again. -/
def reopening : List Step :=
  [.callInitialize, .reply .ok, .reply .exception, .callClose, .reply .ok, .callEnsureReady,
    .reply .ok, .reply .ok, .reply .ok, .reply .ok, .reply .ok]

theorem one_connection_reopening :
    ∃ t, (machine true).exec init reopening = some t ∧ t.live.length ≤ 1 := by
  have fresh : (machine true).Along Fresh init reopening := by decide
  exact ⟨_, rfl, (one_connection fresh rfl).1⟩

/-- The channel cannot be opened, and the client is used again. -/
theorem two_connections_open :
    ¬∀ ls t, (machine true).exec init ls = some t → t.live.length ≤ 1 := by
  intro h
  have := h [.callInitialize, .reply .ok, .reply .exception, .callEnsureReady, .reply .ok] _ rfl
  exact absurd this (by decide)

end RelaynaRabbitClient

end Relayna.Rabbitmq
