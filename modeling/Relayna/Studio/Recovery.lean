import Relayna.Foundation.Keyed
import Relayna.Foundation.Python
import Relayna.Foundation.Transition
import Mathlib.Data.List.Sort

/-!
# The recovery center of the studio

A recovery plan retries a selection of failed tasks of one service, a batch at a time. The plan is
one document that every transaction edits under its row lock; any number of workers take ticks on
it while operators send controls. A tick decides what to dispatch on a snapshot of the plan, claims
the item in a later transaction and sends the retry only after that.

Instants are microseconds. What the service answers is a label of the step: the retry endpoint
writes one `retried_at` to the failed-task record and to its response, so both agree.
-/
namespace Relayna.Studio.Recovery

open Python Transition

/-! ## The plan -/

inductive DispatchState
  | pending | blocked | dispatching | unknown | accepted
  deriving DecidableEq, Repr

inductive Outcome
  | notRequested | unknown | pending | succeeded | failed
  deriving DecidableEq, Repr

inductive PlanState
  | ready | running | paused | stopped | completed
  deriving DecidableEq, Repr

/-- One selected failure. `baseline` is the timestamp of the last status event before the
retry. -/
structure Item where
  failureId : String
  receiptMarker : String
  baseline : Option Int
  dispatchState : DispatchState := .pending
  outcome : Outcome := .notRequested
  requestedAt : Option Int := none
  acceptedAt : Option Int := none
  replacementTaskId : Option String := none
  observedAt : Option Int := none
  lastCheckedAt : Option Int := none
  message : Option String := none
  deriving DecidableEq, Repr

structure Plan where
  items : List Item
  intervalSeconds : Nat
  nextDispatchAt : Int
  state : PlanState := .ready
  version : Nat := 0
  allowance : Nat := 0
  startedAt : Option Int := none
  dispatchFinishedAt : Option Int := none
  deriving DecidableEq, Repr

/-- A `_PreviewRequest` that has been validated. -/
structure PreviewRequest where
  failureIds : List String
  intervalSeconds : Nat := 2
  some_selected : failureIds ≠ []
  at_most : failureIds.length ≤ 200
  once : failureIds.Nodup
  interval_pos : 1 ≤ intervalSeconds
  interval_le : intervalSeconds ≤ 60

def seconds (n : Int) : Int := n * 1000000

/-- `create`: the document of a new plan, with the baselines its preview has read. -/
def create (requestId : String) (request : PreviewRequest) (baseline : String → Option Int)
    (now : Int) : Plan where
  items := request.failureIds.mapIdx fun index failureId =>
    { failureId := failureId
      receiptMarker := "[studio-recovery:" ++ requestId ++ ":" ++ toString index ++ "]"
      baseline := baseline failureId }
  intervalSeconds := request.intervalSeconds
  nextDispatchAt := now

def Outcome.terminal (o : Outcome) : Bool := o = .succeeded || o = .failed

def Item.isPending (i : Item) : Bool := i.dispatchState = .pending

/-- A request may have been sent and its outcome is not known. -/
def Item.observable (i : Item) : Bool :=
  (i.dispatchState = .dispatching || i.dispatchState = .unknown || i.dispatchState = .accepted) &&
    !i.outcome.terminal

/-- The items that are no longer pending. -/
def used (items : List Item) : Nat := items.countP fun i => !i.isPending

abbrev Plan.item? (p : Plan) (failureId : String) : Option Item :=
  Keyed.get? Item.failureId failureId p.items

abbrev Plan.amend (p : Plan) (failureId : String) (g : Item → Item) : List Item :=
  Keyed.amend Item.failureId failureId g p.items

/-! ## Controls -/

structure HTTPException where
  statusCode : Nat
  detail : String
  deriving DecidableEq, Repr

inductive Action
  | batch | pause | resume | stop
  deriving DecidableEq, Repr

/-- A validated `_Control`. -/
structure Control where
  action : Action
  count : Nat
  version : Nat
  count_pos : 1 ≤ count
  count_le : count ≤ 200

theorem default_count_pos : 1 ≤ 5 := by decide

theorem default_count_le : 5 ≤ 200 := by decide

/-- A control that leaves the count at its default. -/
def Control.plain (action : Action) (version : Nat) : Control :=
  ⟨action, 5, version, default_count_pos, default_count_le⟩

def Plan.act (p : Plan) (c : Control) (now : Int) : Except HTTPException Plan :=
  match c.action, p.state with
  | .stop, .stopped => .error ⟨409, "Dispatch has already finished."⟩
  | .stop, .completed => .error ⟨409, "Dispatch has already finished."⟩
  | .stop, _ => .ok { p with state := .stopped, dispatchFinishedAt := some now }
  | .pause, .running => .ok { p with state := .paused }
  | .resume, .paused =>
    if p.allowance ≤ used p.items then
      .error ⟨409, "Batch allowance is exhausted. Authorize another batch."⟩
    else .ok { p with state := .running }
  | .batch, .ready | .batch, .paused =>
    if used p.items = p.items.length then .error ⟨409, "No pending items remain."⟩
    else .ok { p with
      allowance := min p.items.length (used p.items + c.count)
      state := .running }
  | _, _ => .error ⟨409, "Control is not available in the current plan state."⟩

/-- What every accepted control writes besides its own change. -/
def Plan.stamp (p : Plan) (now : Int) : Plan :=
  { p with
    startedAt := if p.state = .running then some (p.startedAt.getD now) else p.startedAt
    version := p.version + 1 }

def Plan.control (p : Plan) (c : Control) (now : Int) : Except HTTPException Plan :=
  if p.version ≠ c.version then
    .error ⟨409, "Plan changed. Refresh before issuing another control."⟩
  else (p.act c now).map fun q => q.stamp now

/-! ## Dispatch -/

/-- The exceptions that preflight turns into a blocked dispatch. -/
inductive PreflightError
  | federation (detail : String) (retryable : Bool)
  | http (exc : HTTPException)
  | serviceNotFound (detail : String)
  deriving DecidableEq, Repr

namespace PreflightError

def message : PreflightError → String
  | federation detail _ => detail
  | http exc => exc.detail
  | serviceNotFound detail => detail

def retryable : PreflightError → Bool
  | federation _ retryable => retryable
  | http exc => exc.statusCode = 403
  | serviceNotFound _ => false

end PreflightError

def Item.block (e : PreflightError) (i : Item) : Item :=
  { i with
    dispatchState := if e.retryable then .pending else .blocked
    message := some e.message }

def Item.claim (baseline : Option Int) (now : Int) (i : Item) : Item :=
  { i with
    dispatchState := .dispatching
    requestedAt := some now
    outcome := .unknown
    baseline := baseline }

namespace Plan

variable (p : Plan)

/-- The item that a tick on this snapshot tries to dispatch. -/
def dispatchTarget : Option String :=
  match p.items.find? Item.isPending with
  | none => none
  | some i =>
    if p.state ≠ .running ∨ p.allowance ≤ used p.items then none else some i.failureId

/-- The edit `block`; `none` where it changes nothing. -/
def block (failureId : String) (e : PreflightError) : Option Plan :=
  match p.item? failureId with
  | none => none
  | some target =>
    if p.state ≠ .running ∨ !target.isPending then none
    else some { p with
      items := p.amend failureId (Item.block e)
      state := .paused
      version := p.version + 1 }

/-- The edit `claim`, for a tick whose snapshot has the version `snapshot` and whose preflight has
read `baseline`. -/
def claim (snapshot : Nat) (failureId : String) (baseline : Option Int) (now : Int) :
    Option Plan :=
  match p.item? failureId with
  | none => none
  | some target =>
    if p.state ≠ .running ∨ p.version ≠ snapshot ∨ !target.isPending ∨
        p.allowance ≤ used p.items ∨ now < p.nextDispatchAt then none
    else some { p with
      items := p.amend failureId (Item.claim baseline now)
      nextDispatchAt := now + seconds p.intervalSeconds }

/-- The edit `settle`. -/
def settle (now : Int) : Option Plan :=
  if p.state = .running ∧ p.allowance ≤ used p.items then
    if used p.items = p.items.length then
      some { p with
        state := .completed
        dispatchFinishedAt := some now
        version := p.version + 1 }
    else some { p with state := .paused, version := p.version + 1 }
  else none

end Plan

/-! ## Changes of one item -/

/-- What a response or an observation says of the dispatch. -/
inductive Acceptance
  | unknown | accepted
  deriving DecidableEq, Repr

def Acceptance.dispatchState : Acceptance → DispatchState
  | unknown => .unknown
  | accepted => .accepted

/-- The dictionary `changes`: a field is `none` where the key is absent. -/
structure Changes where
  dispatchState : Option Acceptance := none
  outcome : Option Outcome := none
  acceptedAt : Option Int := none
  replacementTaskId : Option (Option String) := none
  observedAt : Option Int := none
  lastCheckedAt : Option Int := none
  message : Option (Option String) := none
  deriving DecidableEq, Repr

def Item.update (ch : Changes) (i : Item) : Item :=
  { i with
    dispatchState := (ch.dispatchState.map Acceptance.dispatchState).getD i.dispatchState
    outcome := ch.outcome.getD i.outcome
    acceptedAt := ch.acceptedAt <|> i.acceptedAt
    replacementTaskId := ch.replacementTaskId.getD i.replacementTaskId
    observedAt := ch.observedAt <|> i.observedAt
    lastCheckedAt := ch.lastCheckedAt <|> i.lastCheckedAt
    message := ch.message.getD i.message }

/-- The edit of `_item_change`. -/
def Plan.itemChange (p : Plan) (failureId : String) (ch : Changes) : Option Plan :=
  match p.item? failureId with
  | none => none
  | some item =>
    if item.outcome.terminal then none
    else if ch.dispatchState = some .unknown ∧ item.dispatchState = .accepted then none
    else some { p with items := p.amend failureId (Item.update ch) }

/-- What the service reports of a retried failure, in the response to the retry request and in
the failed-task detail. -/
structure RetryReceipt where
  failureId : Option String
  retryStatus : Option String
  retriedAt : Option Int
  retriedTaskId : Option String
  retryNote : Option String
  deriving DecidableEq, Repr

/-- The receipt names the failure, and when its retry was accepted. -/
def RetryReceipt.acceptance (r : RetryReceipt) (failureId : String) : Option Int :=
  if r.failureId = some failureId ∧ r.retryStatus = some "retried" then r.retriedAt else none

/-- The note starts with the marker of the item. -/
def RetryReceipt.marked (r : RetryReceipt) (marker : String) : Bool :=
  (r.retryNote.getD "").toList.takeWhile (· ≠ ' ') = marker.toList

def acceptedChanges (retriedAt : Int) (retriedTaskId : Option String) (ch : Changes) : Changes :=
  { ch with
    dispatchState := some .accepted
    acceptedAt := some retriedAt
    replacementTaskId := some retriedTaskId
    outcome := some .pending
    message := some none }

/-- What `_dispatch` records of the retry request: its response or the text of an exception. -/
def recorded (failureId : String) : Except String RetryReceipt → Changes
  | .error text =>
    { dispatchState := some .unknown, outcome := some .unknown, message := some (some text) }
  | .ok response =>
    match response.acceptance failureId with
    | some acceptedAt => acceptedChanges acceptedAt response.retriedTaskId {}
    | none =>
      { dispatchState := some .unknown
        outcome := some .unknown
        message := some (some "Retry response did not contain a valid acceptance receipt.") }

/-! ## Observation -/

/-- The fields of a status event under their aliases; the label is in lower case. -/
structure StatusEvent where
  taskId : Option String
  timestamp : Option Int
  label : String
  deriving DecidableEq, Repr

/-- `event` is `none` where it is no mapping. -/
structure StatusReply where
  taskId : Option String
  event : Option StatusEvent
  deriving DecidableEq, Repr

/-- An exception inside `_observe`; every other exception than those it catches leaves it after
the `finally` clause. -/
inductive Fault
  | caught (detail : String)
  | uncaught
  deriving DecidableEq, Repr

/-- What the three upstream calls of one observation would answer. -/
structure Evidence where
  service : Except Fault Unit
  receipt : Except Fault RetryReceipt
  status : Except Fault StatusReply

def terminalLabels : List String := ["failed", "dlq", "retry_exhausted", "terminal_failed"]

/-- Terminal evidence counts when it is not older than the acceptance and newer than the
baseline. -/
def judge (item : Item) (ch : Changes) (event : StatusEvent) : Changes :=
  match event.timestamp, ch.acceptedAt <|> item.acceptedAt with
  | some timestamp, some boundary =>
    if boundary ≤ timestamp ∧ ∀ b ∈ item.baseline, b < timestamp then
      if event.label = "completed" then
        { ch with
          outcome := some .succeeded
          observedAt := some timestamp
          message := some none }
      else if event.label ∈ terminalLabels then
        { ch with
          outcome := some .failed
          observedAt := some timestamp
          message := some none }
      else ch
    else ch
  | _, _ => ch

def identify (item : Item) (ch : Changes) (replacement : String) (reply : StatusReply) :
    Changes × Option Fault :=
  match reply.event with
  | none => (ch, some (.caught "Status response did not identify the replacement task."))
  | some event =>
    if reply.taskId ≠ some replacement then
      (ch, some (.caught "Status response did not identify the replacement task."))
    else if event.taskId.any (· ≠ replacement) then
      (ch, some (.caught "Status event belongs to a different task."))
    else (judge item ch event, none)

def observeStatus (item : Item) (ch : Changes) (status : Except Fault StatusReply) :
    Changes × Option Fault :=
  match ch.replacementTaskId.getD item.replacementTaskId with
  | none =>
    ({ ch with
      outcome := some .unknown
      message := some (some "Accepted without a replacement task ID; outcome is unknown.") }, none)
  | some replacement =>
    if strip replacement = "" then
      ({ ch with
        outcome := some .unknown
        message := some (some "Accepted without a replacement task ID; outcome is unknown.") },
        none)
    else
      match status with
      | .error fault => (ch, some fault)
      | .ok reply => identify item ch replacement reply

/-- The body of the `try` statement, with the changes it starts from. -/
def observeUpstream (item : Item) (ch : Changes) (e : Evidence) : Changes × Option Fault :=
  match e.service with
  | .error fault => (ch, some fault)
  | .ok () =>
    if item.dispatchState = .accepted then observeStatus item ch e.status
    else
      match e.receipt with
      | .error fault => (ch, some fault)
      | .ok receipt =>
        match receipt.acceptance item.failureId, receipt.marked item.receiptMarker with
        | some retriedAt, true =>
          observeStatus item (acceptedChanges retriedAt receipt.retriedTaskId ch) e.status
        | _, _ =>
          ({ ch with message := some (some ("Acceptance unknown; no matching retained retry " ++
            "receipt. Never resent automatically.")) }, none)

/-- The `except` clause. -/
def explain (r : Changes × Option Fault) : Changes :=
  match r.2 with
  | some (.caught detail) => { r.1 with message := some (some detail) }
  | _ => r.1

/-- The `finally` clause, up to `_item_change`. -/
def expire (item : Item) (now : Int) (ch : Changes) : Changes :=
  match ch.acceptedAt <|> item.acceptedAt with
  | some acceptedAt =>
    if !(ch.outcome.getD item.outcome).terminal && seconds 86400 < now - acceptedAt then
      { ch with
        outcome := some .unknown
        message := some
          (some "No fresh terminal evidence within 24 hours; observation continues.") }
    else ch
  | none => ch

/-- The changes `_observe` starts from. -/
def checked (item : Item) (now : Int) : Changes :=
  if item.dispatchState = .accepted then { lastCheckedAt := some now }
  else
    { lastCheckedAt := some now, dispatchState := some .unknown, outcome := some .unknown }

/-- `_observe`: the changes for `_item_change` and whether an exception follows them; `none` where
it returns at once. -/
def observe (item : Item) (now : Int) (e : Evidence) : Option (Changes × Bool) :=
  if !item.observable then none
  else if item.dispatchState = .dispatching ∧ now - item.requestedAt.getD now < seconds 60 then none
  else
    let r := observeUpstream item (checked item now) e
    some (expire item now (explain r), r.2 = some .uncaught)

/-- The items that one tick observes: those checked least recently. -/
def candidates (items : List Item) : List Item :=
  ((items.filter Item.observable).insertionSort fun a b =>
    a.lastCheckedAt.all fun t => b.lastCheckedAt.any fun u => t ≤ u).take 5

/-! ## The report -/

structure Report where
  selected : Nat
  requested : Nat
  accepted : Nat
  observedSuccess : Nat
  observedFailure : Nat
  unknownAcceptance : Nat
  unknownOutcome : Nat
  awaitingOutcome : Nat
  notDispatched : Nat
  repeatedFailures : Nat
  cohortRecovery : Option Int
  deriving DecidableEq, Repr

/-- `_report`; the recovery time of the cohort is in microseconds. -/
def Plan.report (p : Plan) (now : Int) : Report :=
  let succeeded := p.items.countP fun i => i.outcome = .succeeded
  let failed := p.items.countP fun i => i.outcome = .failed
  { selected := p.items.length
    requested := p.items.countP fun i => i.requestedAt.isSome
    accepted := p.items.countP fun i => i.acceptedAt.isSome
    observedSuccess := succeeded
    observedFailure := failed
    unknownAcceptance := p.items.countP fun i =>
      i.dispatchState = .unknown || i.dispatchState = .dispatching
    unknownOutcome := p.items.countP fun i => i.outcome = .unknown
    awaitingOutcome := p.items.countP fun i => i.outcome = .pending
    notDispatched := p.items.countP fun i => i.requestedAt.isNone
    repeatedFailures := failed
    cohortRecovery :=
      if succeeded = p.items.length then
        p.startedAt.bind fun started =>
          (p.items.map fun i => i.observedAt.getD now).max?.map fun latest =>
            max 0 (latest - started)
      else none }

/-! ## What an edit can do -/

section Edits

variable {p q : Plan} {f : String} {now : Int}

theorem block_cases {e : PreflightError} (h : p.block f e = some q) :
    ∃ i, p.item? f = some i ∧ p.state = .running ∧ i.isPending = true ∧
      q = { p with
        items := p.amend f (Item.block e)
        state := .paused
        version := p.version + 1 } := by
  unfold Plan.block at h
  split at h
  · cases h
  · next i found =>
    split at h
    · cases h
    · next open' =>
      obtain ⟨running, pending⟩ := not_or.mp open'
      exact ⟨i, found, by simpa using running, by simpa using pending,
        (Option.some.inj h).symm⟩

theorem claim_cases {snapshot : Nat} {baseline : Option Int}
    (h : p.claim snapshot f baseline now = some q) :
    ∃ i, p.item? f = some i ∧ p.state = .running ∧ p.version = snapshot ∧ i.isPending = true ∧
      used p.items < p.allowance ∧ p.nextDispatchAt ≤ now ∧
      q = { p with
        items := p.amend f (Item.claim baseline now)
        nextDispatchAt := now + seconds p.intervalSeconds } := by
  unfold Plan.claim at h
  split at h
  · cases h
  · next i found =>
    split at h
    · cases h
    · next open' =>
      simp only [not_or, not_not, not_le, not_lt, Bool.not_eq_true', Bool.not_eq_false] at open'
      obtain ⟨running, version, pending, room, due⟩ := open'
      exact ⟨i, found, running, version, pending, room, due, (Option.some.inj h).symm⟩

theorem settle_cases (h : p.settle now = some q) :
    p.state = .running ∧ p.allowance ≤ used p.items ∧
      ((used p.items = p.items.length ∧ q = { p with
        state := .completed
        dispatchFinishedAt := some now
        version := p.version + 1 }) ∨
      (used p.items ≠ p.items.length ∧
        q = { p with state := .paused, version := p.version + 1 })) := by
  unfold Plan.settle at h
  split at h
  · next full =>
    split at h
    · next all => exact ⟨full.1, full.2, Or.inl ⟨all, (Option.some.inj h).symm⟩⟩
    · next some' => exact ⟨full.1, full.2, Or.inr ⟨some', (Option.some.inj h).symm⟩⟩
  · cases h

theorem itemChange_cases {ch : Changes} (h : p.itemChange f ch = some q) :
    ∃ i, p.item? f = some i ∧ i.outcome.terminal = false ∧
      ¬(ch.dispatchState = some .unknown ∧ i.dispatchState = .accepted) ∧
      q = { p with items := p.amend f (Item.update ch) } := by
  unfold Plan.itemChange at h
  split at h
  · cases h
  · next i found =>
    split at h
    · cases h
    · next open' =>
      split at h
      · cases h
      · next allowed =>
        exact ⟨i, found, by simpa using open', allowed, (Option.some.inj h).symm⟩

/-- The plan an accepted control leaves, before the version is counted up. -/
inductive Acted (p : Plan) (c : Control) (now : Int) : Plan → Prop
  | stop (action : c.action = .stop) (running : p.state ≠ .stopped ∧ p.state ≠ .completed) :
      Acted p c now { p with state := .stopped, dispatchFinishedAt := some now }
  | pause (action : c.action = .pause) (running : p.state = .running) :
      Acted p c now { p with state := .paused }
  | resume (action : c.action = .resume) (paused : p.state = .paused)
      (room : used p.items < p.allowance) : Acted p c now { p with state := .running }
  | batch (action : c.action = .batch) (waits : p.state = .ready ∨ p.state = .paused)
      (some_pending : used p.items ≠ p.items.length) :
      Acted p c now { p with
        allowance := min p.items.length (used p.items + c.count)
        state := .running }

theorem acted_of_act {c : Control} (h : p.act c now = .ok q) : Acted p c now q := by
  unfold Plan.act at h
  split at h
  · cases h
  · cases h
  · next action finished completed =>
    obtain rfl := Except.ok.inj h
    exact .stop action ⟨finished, completed⟩
  · next action running =>
    obtain rfl := Except.ok.inj h
    exact .pause action running
  · next action paused =>
    split at h
    · cases h
    · next room =>
      obtain rfl := Except.ok.inj h
      exact .resume action paused (Nat.lt_of_not_le room)
  · next action ready =>
    split at h
    · cases h
    · next some_pending =>
      obtain rfl := Except.ok.inj h
      exact .batch action (Or.inl ready) some_pending
  · next action paused =>
    split at h
    · cases h
    · next some_pending =>
      obtain rfl := Except.ok.inj h
      exact .batch action (Or.inr paused) some_pending
  · cases h

theorem control_cases {c : Control} (h : p.control c now = .ok q) :
    p.version = c.version ∧ ∃ r, Acted p c now r ∧ q = r.stamp now := by
  unfold Plan.control at h
  split at h
  · cases h
  · next version =>
    refine ⟨not_not.mp version, ?_⟩
    cases acted : p.act c now with
    | error e =>
      rw [acted] at h
      cases h
    | ok r =>
      rw [acted] at h
      exact ⟨r, acted_of_act acted, (Except.ok.inj h).symm⟩

end Edits

end Relayna.Studio.Recovery
