import Mathlib.Algebra.Order.Field.Rat
import Relayna.Foundation.AsyncLock
import Relayna.Foundation.Keyed
import Relayna.Foundation.Transition

/-!
# The availability gate of a provider

`run` performs an operation of a key unless the key is paused after a failure. A key that no recent
operation has found healthy is probed by one operation, under the lock of the key; other calls wait
for the lock. An operation that fails pauses the key, for longer after each failure, and one that
succeeds clears the outage unless a failure was recorded since it started.

A call runs without an await from one of the steps below to the next: from its start, or from the
grant of the lock, to where it waits for the lock or for its operation. What an operation does, when
a wait ends by its timeout (of ten seconds) or a cancellation, and what the clock reads each time is
the environment's; the readings never decrease. An acquire that is not contended does not yield.
-/
namespace Relayna.Studio.ProviderAvailability

open AsyncLock Transition

abbrev Key := String × String

/-! ## The state of a key -/

/-- `_Availability`, with the times of the monotonic clock in seconds and those of the calendar in
microseconds. -/
structure Availability where
  lock : Lock Nat := {}
  healthyUntil : ℚ := 0
  retryAt : ℚ := 0
  generation : Nat := 0
  active : Nat := 0
  waiters : Nat := 0
  checkedAt : Option Int := none
  lastSuccessfulAt : Option Int := none
  failures : Nat := 0

def cooldown : ℚ := 30
def freshness : ℚ := 30
def maxActive : Nat := 2
def maxWaiting : Nat := 16
def maxStates : Nat := 128

/-- What `random.uniform(0.8, 1.2)` gives. -/
structure Jitter where
  factor : ℚ
  ge : 4 / 5 ≤ factor
  le : factor ≤ 6 / 5

/-- The pause after so many failures. -/
def backoff (failures : Nat) (jitter : Jitter) : ℚ :=
  let delay := min 300 (cooldown * (Nat.pow 2 (min (failures - 1) 4) : Nat))
  min 300 (delay * jitter.factor)

/-- How an operation ends. `escapes` is a cancellation or another exception. -/
inductive Outcome
  | success (now : Int)
  | failure (reason : String) (jitter : Jitter) (now : Int)
  | escapes

/-- What an operation that was started in a generation leaves. -/
def Availability.conclude (a : Availability) (generation : Nat) (outcome : Outcome) (t : ℚ) :
    Availability :=
  match outcome with
  | .success now =>
    let a := { a with checkedAt := some now, lastSuccessfulAt := some now }
    if generation = a.generation then
      { a with failures := 0, retryAt := 0, healthyUntil := t + freshness }
    else a
  | .failure _ jitter now =>
    { a with
      generation := a.generation + 1
      failures := a.failures + 1
      healthyUntil := 0
      retryAt := t + backoff (a.failures + 1) jitter
      checkedAt := some now }
  | .escapes => a

/-! ## The gate -/

/-- Where a call is. It holds the lock of its key or not, and `healthy` is what it has read last
before its operation started. -/
inductive Phase
  | waiting
  | performing (held : Bool) (generation : Nat) (healthy : Bool)
  deriving DecidableEq, Repr

structure Call where
  id : Nat
  key : Key
  phase : Phase
  deriving DecidableEq, Repr

/-- What `run` raises by itself. -/
inductive Refusal
  | busyStates
  | paused (seconds : Int)
  | busyChecks
  | pendingCheck
  | busyRequests
  | failed (reason : String) (seconds : Int)
  deriving DecidableEq, Repr

def Refusal.text (label : String) : Refusal → String
  | .busyStates | .busyChecks => label ++ " availability checks are busy; retry shortly."
  | .paused seconds => label ++ " is unavailable. Dependent requests are paused; retry in " ++
      toString seconds ++ " seconds."
  | .pendingCheck => label ++ " availability check is still pending; retry shortly."
  | .busyRequests => label ++ " requests are busy; retry shortly."
  | .failed reason seconds =>
    (if reason = "" then label ++ " query exceeded its time budget." else reason) ++ " " ++
      label ++ " is unavailable. Dependent requests are paused; retry in " ++
      toString seconds ++ " seconds."

/-- What has happened: an operation has started at a reading, has failed at a reading and paused
its key, or has succeeded; or a call was refused. -/
inductive Event
  | started (id : Nat) (key : Key) (t : ℚ)
  | failed (id : Nat) (key : Key) (t : ℚ) (retryAt : ℚ)
  | succeeded (id : Nat) (key : Key)
  | refused (id : Nat) (reason : Refusal)
  deriving DecidableEq

/-- `_ProviderAvailability`, with its pending calls and, newest first, what has happened. -/
structure Gate where
  states : List (Key × Availability) := []
  active : Nat := 0
  waiting : Nat := 0
  calls : List Call := []
  next : Nat := 0
  clock : ℚ := 0
  log : List Event := []

/-- Readings of `monotonic()` in one step. -/
structure Readings where
  t₁ : ℚ
  t₂ : ℚ
  t₃ : ℚ
  t₄ : ℚ
  le₁₂ : t₁ ≤ t₂
  le₂₃ : t₂ ≤ t₃
  le₃₄ : t₃ ≤ t₄

/-- `max(1, int(state.retry_at - monotonic()) + 1)`. -/
def Availability.remaining (a : Availability) (t : ℚ) : Int :=
  max 1 ((a.retryAt - t).num.tdiv (a.retryAt - t).den + 1)

/-- The state may be dropped. -/
def Availability.idle (a : Availability) : Bool :=
  a.active = 0 && a.waiters = 0 && !a.lock.locked

namespace Gate

variable (s : Gate)

/-- The state of a key; a key without one gets a fresh one when it is used. -/
def stateAt (key : Key) : Availability := ((Keyed.get? Prod.fst key s.states).map Prod.snd).getD {}

/-- `_state`. -/
def stateFor (key : Key) : Option Gate :=
  match Keyed.get? Prod.fst key s.states with
  | some entry => some { s with states := s.states.filter (·.1 ≠ key) ++ [entry] }
  | none =>
    if maxStates ≤ s.states.length then
      (s.states.find? (·.2.idle)).map fun candidate =>
        { s with states := s.states.filter (·.1 ≠ candidate.1) ++ [(key, {})] }
    else some { s with states := s.states ++ [(key, {})] }

def modify (key : Key) (g : Availability → Availability) : Gate :=
  { s with states := Keyed.amend Prod.fst key (fun entry => (entry.1, g entry.2)) s.states }

def refuse (id : Nat) (reason : Refusal) : Gate := { s with log := .refused id reason :: s.log }

def release (key : Key) : Gate := s.modify key fun a => { a with lock := a.lock.release }

/-- `check`. -/
def check (key : Key) (t t' : ℚ) : Option Refusal :=
  (Keyed.get? Prod.fst key s.states).bind fun entry =>
    if entry.2.retryAt > t then some (.paused (entry.2.remaining t')) else none

/-- `_perform` up to where the operation has started, or its refusal. `t` was read last. -/
def perform (id : Nat) (key : Key) (held : Bool) (t : ℚ) : Gate :=
  if maxActive ≤ s.active then
    if held then (s.refuse id .busyRequests).release key else s.refuse id .busyRequests
  else
    let a := s.stateAt key
    let s := s.modify key fun a => { a with active := a.active + 1 }
    { s with
      active := s.active + 1
      calls := s.calls ++ [⟨id, key, .performing held a.generation (t < a.healthyUntil)⟩]
      log := .started id key t :: s.log }

/-- `run` from where it has the lock. -/
def probe (id : Nat) (key : Key) (t t' : ℚ) : Gate :=
  let a := s.stateAt key
  if a.retryAt > t then (s.refuse id (.paused (a.remaining t'))).release key
  else if a.healthyUntil ≤ t' then s.perform id key true t'
  else (s.release key).perform id key false t'

/-- `run` with the state of its key. -/
def enter (id : Nat) (key : Key) (t : Readings) : Gate :=
  let a := s.stateAt key
  if a.retryAt > t.t₁ then s.refuse id (.paused (a.remaining t.t₂))
  else if a.healthyUntil ≤ t.t₂ then
    let taken := s.modify key fun a => { a with lock := a.lock.take }
    if a.lock.locked || a.waiters ≠ 0 then
      if maxWaiting ≤ s.waiting then s.refuse id .busyChecks
      else if a.lock.available then taken.probe id key t.t₃ t.t₄
      else
        let s := s.modify key fun a =>
          { a with waiters := a.waiters + 1, lock := a.lock.enqueue id }
        { s with waiting := s.waiting + 1, calls := s.calls ++ [⟨id, key, .waiting⟩] }
    else taken.probe id key t.t₃ t.t₄
  else s.perform id key false t.t₂

/-- `run` from its call to its first await. -/
def run (key : Key) (t : Readings) : Gate :=
  let id := s.next
  let s := { s with next := s.next + 1 }
  match s.stateFor key with
  | none => s.refuse id .busyStates
  | some s => s.enter id key t

def call? (id : Nat) : Option Call := Keyed.get? Call.id id s.calls

def drop (id : Nat) : Gate := { s with calls := s.calls.filter (·.id ≠ id) }

/-- A timeout or a cancellation reaches a call that waits for the lock. -/
def cancel (id : Nat) : Option Gate :=
  match s.call? id with
  | some ⟨_, key, .waiting⟩ => some (s.modify key fun a => { a with lock := a.lock.cancel id })
  | _ => none

/-- A call that has waited for the lock resumes. -/
def resume (id : Nat) (t : Readings) : Option Gate :=
  match s.call? id with
  | some ⟨_, key, .waiting⟩ =>
    ((s.stateAt key).lock.resume id).map fun (lock, taken) =>
      let s := (s.drop id).modify key fun a => { a with waiters := a.waiters - 1, lock := lock }
      let s := { s with waiting := s.waiting - 1 }
      if taken then s.probe id key t.t₁ t.t₂ else s.refuse id .pendingCheck
  | _ => none

/-- What an operation leaves in the log. -/
def record (id : Nat) (key : Key) (outcome : Outcome) (t t' : ℚ) : Gate :=
  match outcome with
  | .success _ => { s with log := .succeeded id key :: s.log }
  | .failure reason _ _ =>
    { s with log := .refused id (.failed reason ((s.stateAt key).remaining t')) ::
        .failed id key t (s.stateAt key).retryAt :: s.log }
  | .escapes => s

/-- An operation ends. -/
def finish (id : Nat) (outcome : Outcome) (t : Readings) : Option Gate :=
  match s.call? id with
  | some ⟨_, key, .performing held generation _⟩ =>
    let s := (s.drop id).modify key fun a => a.conclude generation outcome t.t₁
    let s := s.record id key outcome t.t₁ t.t₂
    let s := s.modify key fun a => { a with active := a.active - 1 }
    let s := { s with active := s.active - 1 }
    some (if held then s.release key else s)
  | _ => none

end Gate

inductive Label
  | run (key : Key) (t : Readings)
  | cancel (id : Nat)
  | resume (id : Nat) (t : Readings)
  | finish (id : Nat) (outcome : Outcome) (t : Readings)

/-- A step whose readings do not decrease. -/
def Gate.timed (s : Gate) (t : Readings) (next : Option Gate) : Option Gate :=
  if s.clock ≤ t.t₁ then next.map fun s' => { s' with clock := t.t₄ } else none

def gate : Machine Gate Label where
  next s
    | .run key t => s.timed t (some (s.run key t))
    | .cancel id => s.cancel id
    | .resume id t => s.timed t (s.resume id t)
    | .finish id outcome t => s.timed t (s.finish id outcome t)

end Relayna.Studio.ProviderAvailability
