import Relayna.Contracts.Transport
import Relayna.Foundation.Transition

/-!
# E-mails about failed tasks

`notify_new_failed_tasks` lists the failures that nobody has reviewed, adds those that were not
notified to the pending batch, and e-mails the batch: one e-mail for each failure, or one e-mail
for all of them when the batch has waited long enough. A failure is marked as notified after the
e-mail, and the pending batch is written last.

A run may be cut short wherever it awaits. Its failures are marked one by one, so some of the
stored batch may be marked then, and what is stored is not looked up again: `spoils` says when.
-/
namespace Relayna.Studio.FailedTaskEmails

open Python Contracts

abbrev Item := Fields Value

structure Failure where
  serviceId : String
  failureId : String
  deriving DecidableEq, Repr

/-- The text in `_item_key` and in the key of `_notified_key`. -/
def Failure.key (f : Failure) : String := f.serviceId ++ ":" ++ f.failureId

structure Batch where
  startedAt : Int
  items : List Item

structure RuntimeSettings where
  enabled : Bool
  batchWaitSeconds : Nat
  deriving DecidableEq, Repr

/-- Where the history is kept. -/
inductive Backend
  | redis | postgres
  deriving DecidableEq, Repr

/-- How a call ends. One that raises may have been carried out all the same. -/
inductive Fate
  | returns
  | raises (done : Bool)
  deriving DecidableEq, Repr

def Fate.done : Fate → Bool
  | .returns => true
  | .raises done => done

/-- The settings, the answers and the clock readings that one run gets. -/
structure Attempt where
  settings : Option RuntimeSettings
  lock : Fate := .returns
  unlock : Fate := .returns
  load : Fate := .returns
  /-- The answers of `list_failed_tasks`, up to the first that raises. -/
  pages : List (Option (Fields Value))
  lookup : Failure → Fate := fun _ => .returns
  send : List Item → Fate := fun _ => .returns
  mark : Failure → Fate := fun _ => .returns
  write : Fate := .returns
  loadedAt : Int := 0
  checkedAt : Int := 0
  savedAt : Int := 0

inductive Event
  | email (failures : List Failure)
  | notified (failure : Failure)
  deriving DecidableEq, Repr

/-- The stores, and the e-mails and the marks that have succeeded, oldest first. -/
structure State where
  notified : List Failure := []
  pending : Option Batch := none
  locked : Bool := false
  log : List Event := []

/-- `_string_field`. -/
def stringField (text : Text) (item : Fields Value) (key : String) : Option String :=
  match item.lookup key with
  | none | some .none => none
  | some v => nonEmpty (strip (text.str v))

def failureOf (text : Text) (item : Item) : Option Failure :=
  (stringField text item "service_id").bind fun serviceId =>
    (stringField text item "failure_id").map fun failureId => ⟨serviceId, failureId⟩

/-- `_item_key`. -/
def itemKey (text : Text) (item : Item) : String :=
  (stringField text item "service_id").getD "" ++ ":" ++
    (stringField text item "failure_id").getD ""

/-! ## The listing -/

/-- The items of `payload.get("items", [])` that are dictionaries. -/
def pageItems (payload : Fields Value) : Option (List Item) :=
  match payload.lookup "items" with
  | none => some []
  | some (.list xs) => some (xs.filterMap fun
      | .dict item => some item
      | _ => none)
  | some (.str _) | some (.bytes _) | some (.dict _) => some []
  | some _ => none

/-- `_list_unreviewed_failed_task_items` with the cursors that were seen. -/
def listItems (text : Text) : List (Option (Fields Value)) → List String → Option (List Item)
  | [], _ | none :: _, _ => none
  | some payload :: pages, seen =>
    (pageItems payload).bind fun items =>
      match stringField text payload "next_cursor" with
      | none => some items
      | some cursor =>
        if cursor ∈ seen then some items
        else (listItems text pages (cursor :: seen)).map (items ++ ·)

/-! ## Calls -/

namespace State

variable (text : Text) (b : Backend) (r : Attempt) (s : State)

/-- `_is_notified`. A Redis key joins the two ids. -/
def isNotified (f : Failure) : Bool :=
  match b with
  | .redis => f.key ∈ s.notified.map Failure.key
  | .postgres => f ∈ s.notified

def email (items : List Item) : State :=
  { s with log := s.log ++ [.email (items.filterMap (failureOf text))] }

/-- `_send_email`, and whether it returns. -/
def sendEmail (items : List Item) : State × Bool :=
  match r.send items with
  | .returns => (s.email text items, true)
  | .raises done => (if done then s.email text items else s, false)

/-- `_mark_notified`. -/
def markNotified (f : Failure) : State × Bool :=
  match r.mark f with
  | .returns => ({ s with notified := f :: s.notified, log := s.log ++ [.notified f] }, true)
  | .raises done => (if done then { s with notified := f :: s.notified } else s, false)

/-- `_save_pending_batch` or `_clear_pending_batch`, and what the run then returns. -/
def writePending (batch : Option Batch) (sent : Nat) : State × Option Nat :=
  match r.write with
  | .returns => ({ s with pending := batch }, some sent)
  | .raises done => (if done then { s with pending := batch } else s, none)

/-! ## A run -/

/-- The loop of `_send_immediate_notifications`. -/
def sendEach : State → List Item → List Item → Nat → State × Option (List Item × Nat)
  | s, [], remaining, sent => (s, some (remaining, sent))
  | s, item :: items, remaining, sent =>
    match failureOf text item with
    | none => sendEach s items remaining sent
    | some f =>
      match s.sendEmail text r [item] with
      | (s, false) => sendEach s items (remaining ++ [item]) sent
      | (s, true) =>
        match s.markNotified r f with
        | (s, true) => sendEach s items remaining (sent + 1)
        | (s, false) => (s, none)

def sendImmediateNotifications (items : List Item) : State × Option Nat :=
  match sendEach text r s items [] 0 with
  | (s, none) => (s, none)
  | (s, some (remaining, sent)) =>
    if remaining.isEmpty then s.writePending r none sent
    else s.writePending r (some ⟨r.savedAt, remaining⟩) sent

def validItems (items : List Item) : List Item :=
  items.filter fun item => (failureOf text item).isSome

/-- The loop of `_send_batch_notification`, and whether it comes to its end. -/
def markEach : State → List Item → State × Bool
  | s, [] => (s, true)
  | s, item :: items =>
    match failureOf text item with
    | none => markEach s items
    | some f =>
      match s.markNotified r f with
      | (s, true) => markEach s items
      | (s, false) => (s, false)

def sendBatchNotification (items : List Item) : State × Option Nat :=
  let validItems := validItems text items
  if validItems.isEmpty then s.writePending r none 0
  else
    match s.sendEmail text r validItems with
    | (s, false) => s.writePending r (some ⟨r.savedAt, validItems⟩) 0
    | (s, true) =>
      match markEach text r s validItems with
      | (s, true) => s.writePending r none validItems.length
      | (s, false) => (s, none)

/-- The loop over the listed items, with the items of the batch. `started_at` is always set. -/
def queue : List Item → List Item → Option (List Item)
  | pending, [] => some pending
  | pending, item :: items =>
    match failureOf text item with
    | none => queue pending items
    | some f =>
      if r.lookup f ≠ .returns then none
      else if s.isNotified b f then queue pending items
      else if itemKey text item ∈ pending.map (itemKey text) then queue pending items
      else queue (pending ++ [item]) items

/-- `_notify_new_failed_tasks` up to where it writes: the batch, unless something raises. -/
def gather : Option Batch :=
  if r.load ≠ .returns then none
  else
    let batch := s.pending.getD ⟨r.loadedAt, []⟩
    ((listItems text r.pages []).bind (s.queue text b r batch.items)).map fun items =>
      { batch with items := items }

/-- The batch is to wait. -/
def waits (settings : RuntimeSettings) (batch : Batch) : Bool :=
  r.checkedAt < batch.startedAt + settings.batchWaitSeconds * 1000000

/-- `_notify_new_failed_tasks`. -/
def notifyNew (settings : RuntimeSettings) : State × Option Nat :=
  match s.gather text b r with
  | none => (s, none)
  | some batch =>
    if batch.items.isEmpty then s.writePending r none 0
    else if settings.batchWaitSeconds = 0 then s.sendImmediateNotifications text r batch.items
    else if waits r settings batch then s.writePending r (some batch) 0
    else s.sendBatchNotification text r batch.items

/-- The settings of a run that is enabled and, on Redis, gets the lock. -/
def entered : Option RuntimeSettings :=
  r.settings.filter fun settings =>
    settings.enabled && (b = .postgres || (r.lock = .returns && !s.locked))

/-- `notify_new_failed_tasks`, and the number that it returns. -/
def notify : State × Option Nat :=
  match r.settings with
  | none => (s, none)
  | some settings =>
    if !settings.enabled then (s, some 0)
    else
      match b with
      | .postgres => s.notifyNew text b r settings
      | .redis =>
        match r.lock with
        | .raises done => ({ s with locked := s.locked || done }, none)
        | .returns =>
          if s.locked then (s, some 0)
          else
            match { s with locked := true }.notifyNew text b r settings, r.unlock with
            | (s, result), .returns => ({ s with locked := false }, result)
            | (s, _), .raises done => ({ s with locked := !done }, none)

end State

end Relayna.Studio.FailedTaskEmails
