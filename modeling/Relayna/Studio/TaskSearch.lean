import Relayna.Foundation.Python
import Relayna.Foundation.Transition

/-!
# Task search in Redis

A task document is mirrored in sets: of all documents, of the documents of its service, and one for
each value of a field that can be searched for. `set_task_document` removes the document from the
sets of the one that was stored before and adds it to its own, one command at a time, and a search
trusts the sets.

A document id is the text of the service id and the task id, which it determines; here it is the
pair. `seen` is not stored: it lists the times of the events that the document of an id has been
made of since it was created.
-/
namespace Relayna.Studio.TaskSearch

open Python Transition

/-- `datetime`; a time is a number of microseconds. A conversion that leaves the calendar raises. -/
structure Calendar where
  /-- `datetime.fromisoformat`: the time that is shown, and its offset if there is one. -/
  fromIsoformat : String → Option (Int × Option Int)
  /-- When a time is shown where the server is, which `astimezone()` finds out if it can. -/
  astimezone : Int → Option Int
  /-- What `isoformat()` shows of an instant in UTC, before the offset; `none` for an instant
  before `datetime.min` or after `datetime.max`, where `astimezone(UTC)` raises. -/
  shown : Int → Option String
  /-- `datetime.min`. -/
  least : Int
  strip_shown : ∀ {t text}, shown t = some text → strip (text ++ "Z") = text ++ "Z"
  fromIsoformat_shown : ∀ {t text}, shown t = some text →
    fromIsoformat (text ++ "+00:00") = some (t, some 0)

namespace Calendar

variable (z : Calendar)

/-- `Z` at the end is written as an offset. -/
def offsetOf (text : String) : String :=
  if text.toList.getLast? = some 'Z' then String.ofList text.toList.dropLast ++ "+00:00" else text

/-- The instant that a text shows, when `instant` makes one of a time and its offset: `some none`
for a text that shows none, and `none` where `instant` raises. -/
def parse (instant : Int × Option Int → Option Int) (value : Option String) : Option (Option Int) :=
  match (value.map strip).filter (· ≠ "") with
  | none => some none
  | some text =>
    match z.fromIsoformat (offsetOf text) with
    | none => some none
    | some t => (instant t).map some

/-- A time without an offset is shown where the server is. -/
def atServer (t : Int × Option Int) : Option Int :=
  t.2.elim (z.astimezone t.1) fun offset => some (t.1 - offset)

/-- `_parse_datetime`. -/
def parseDatetime (value : Option String) : Option (Option Int) := z.parse z.atServer value

/-- `_isoformat`. -/
def isoformat : Option Int → Option (Option String)
  | none => some none
  | some t => (z.shown t).map fun text => some (text ++ "Z")

/-- The time that a text shows, of a text that can be read. -/
def instant (value : Option String) : Option Int := (z.parseDatetime value).join

end Calendar

abbrev Id := String × String

structure TaskSearchDocument where
  serviceId : String
  serviceName : String
  environment : String
  taskId : String
  correlationId : Option String
  status : Option String
  stage : Option String
  firstSeenAt : Option String
  lastSeenAt : Option String
  latestEventType : Option String
  latestEventAt : Option String
  latestIngestedAt : Option String
  detailPath : String
  expiresAt : Option String
  deriving DecidableEq, Repr

structure Service where
  serviceId : String
  name : String
  environment : String
  deriving DecidableEq, Repr

/-- `status` and `stage` are those of the payload, as texts. -/
structure Event where
  taskId : String
  correlationId : Option String
  status : Option String
  stage : Option String
  timestamp : Option String
  ingestedAt : String
  eventType : String
  deriving DecidableEq, Repr

/-- `_normalize_optional_string`. -/
def normalize (value : Option String) : Option String := (value.map strip).filter (· ≠ "")

/-- Python's `or`. -/
def orElse (a b : Option String) : Option String := (a.filter (· ≠ "")).or b

/-! ## Documents -/

section Documents

variable (z : Calendar)

/-- `_later_iso` and `_earlier_iso`, where `none` is an `OverflowError`. -/
def mergeIso (pick : Int → Int → Int) (left right : Option String) : Option (Option String) := do
  let left ← z.parseDatetime left
  let right ← z.parseDatetime right
  match left, right with
  | none, _ => z.isoformat right
  | some _, none => z.isoformat left
  | some a, some b => z.isoformat (some (pick a b))

def laterIso (left right : Option String) : Option (Option String) := mergeIso z max left right

def earlierIso (left right : Option String) : Option (Option String) := mergeIso z min left right

def isNotEarlier (left right : Option String) : Option Bool := do
  let left ← z.parseDatetime left
  let right ← z.parseDatetime right
  match left, right with
  | none, _ => return false
  | some _, none => return true
  | some a, some b => return b ≤ a

def Event.seenAt (event : Event) : Option String := orElse event.timestamp (some event.ingestedAt)

def taskPath (serviceId taskId : String) : String :=
  "/studio/tasks/" ++ serviceId ++ "/" ++ taskId

/-- The document that the first event of a task creates, before it is updated with the event. -/
def created (service : Service) (event : Event) : TaskSearchDocument where
  serviceId := service.serviceId
  serviceName := service.name
  environment := service.environment
  taskId := event.taskId
  correlationId := event.correlationId
  status := normalize event.status
  stage := normalize event.stage
  firstSeenAt := event.seenAt
  lastSeenAt := event.seenAt
  latestEventType := some event.eventType
  latestEventAt := event.timestamp
  latestIngestedAt := some event.ingestedAt
  detailPath := taskPath service.serviceId event.taskId
  expiresAt := none

/-- `latest_event_at` of the document, whose event may be the latest. -/
def latestEventAt (newest : Bool) (current : TaskSearchDocument) (event : Event) :
    Option (Option String) :=
  if newest then (z.parseDatetime event.seenAt).bind z.isoformat else some current.latestEventAt

/-- The document that `upsert_task_document` stores, if no conversion raises. -/
def upserted (ttl : Int) (now : Int) (service : Service) (event : Event)
    (existing : Option TaskSearchDocument) : Option TaskSearchDocument := do
  let current := existing.getD (created service event)
  let firstSeenAt ← earlierIso z current.firstSeenAt event.seenAt
  let lastSeenAt ← laterIso z current.lastSeenAt event.seenAt
  let newest ← isNotEarlier z event.seenAt current.latestEventAt
  let latestEventAt ← latestEventAt z newest current event
  let latestIngestedAt ← laterIso z current.latestIngestedAt (some event.ingestedAt)
  let expiresAt ← z.isoformat (some (now + max 60000000 ttl))
  return { current with
    serviceName := service.name
    environment := service.environment
    correlationId := orElse event.correlationId current.correlationId
    status := (normalize event.status).or current.status
    stage := (normalize event.stage).or current.stage
    firstSeenAt := firstSeenAt
    lastSeenAt := lastSeenAt
    latestEventAt := latestEventAt
    latestEventType := if newest then some event.eventType else current.latestEventType
    latestIngestedAt := latestIngestedAt
    detailPath := taskPath service.serviceId event.taskId
    expiresAt := expiresAt }

def TaskSearchDocument.refreshed (d : TaskSearchDocument) (service : Service) :
    TaskSearchDocument :=
  { d with
    serviceName := service.name
    environment := service.environment
    detailPath := taskPath service.serviceId d.taskId }

/-- `_document_expired`. -/
def TaskSearchDocument.expired (d : TaskSearchDocument) (now : Int) : Option Bool :=
  (z.parseDatetime d.expiresAt).map (·.any (· ≤ now))

end Documents

def TaskSearchDocument.id (d : TaskSearchDocument) : Id := (d.serviceId, d.taskId)

inductive Field
  | serviceId | taskId | correlationId | status | stage
  deriving DecidableEq, Repr

/-- The value that a document is found under. -/
def TaskSearchDocument.field (d : TaskSearchDocument) : Field → Option String
  | .serviceId => some d.serviceId
  | .taskId => some d.taskId
  | .correlationId => d.correlationId.filter (· ≠ "")
  | .status => d.status.filter (· ≠ "")
  | .stage => d.stage.filter (· ≠ "")

/-! ## Commands -/

inductive Key
  | all
  | service (id : String)
  | filter (field : Field) (value : String)
  deriving DecidableEq, Repr

structure Redis where
  docs : Id → Option TaskSearchDocument := fun _ => none
  sets : Key → List Id := fun _ => []
  seen : Id → List Int := fun _ => []

/-- A command of an operation on one document. -/
inductive Command
  | srem (key : Key)
  | sadd (key : Key)
  /-- The document is stored, made of events of these times besides. -/
  | set (d : TaskSearchDocument) (times : List Int)
  | del
  deriving DecidableEq

def Redis.exec (g : Redis) (id : Id) : Command → Redis
  | .srem key => { g with sets := Function.update g.sets key ((g.sets key).filter (· ≠ id)) }
  | .sadd key =>
    { g with
      sets := Function.update g.sets key
        (if id ∈ g.sets key then g.sets key else g.sets key ++ [id]) }
  | .set d times =>
    { g with
      docs := Function.update g.docs id (some d)
      seen := Function.update g.seen id (g.seen id ++ times) }
  | .del =>
    { g with docs := Function.update g.docs id none, seen := Function.update g.seen id [] }

/-- The set of a value that the document has. -/
def TaskSearchDocument.filterKeys (d : TaskSearchDocument) (fields : List Field) : List Key :=
  fields.filterMap fun field => (d.field field).map (Key.filter field)

/-- `_remove_task_indexes`. -/
def removeTaskIndexes (d : TaskSearchDocument) : List Command :=
  (.service d.serviceId ::
    d.filterKeys [.serviceId, .taskId, .correlationId, .status, .stage]).map .srem

/-- `set_task_document`, with the document that it has read. -/
def setTaskDocument (previous : Option TaskSearchDocument) (d : TaskSearchDocument)
    (times : List Int) : List Command :=
  previous.elim [] removeTaskIndexes ++ .set d times ::
    (.all :: .service d.serviceId ::
      d.filterKeys [.serviceId, .correlationId, .status, .stage, .taskId]).map .sadd

/-- `delete_task_document`, with the document that it has read. -/
def deleteTaskDocument (existing : Option TaskSearchDocument) : List Command :=
  existing.elim [] removeTaskIndexes ++ [.del, .srem .all]

/-! ## Calls -/

/-- What a call does after the document that it is at. -/
inductive Rest where
  | nothing
  | refresh (service : Service) (todo : List Id)
  | delete (todo : List Id)
  | prune (todo : List Id)
  /-- Documents that have been found to be expired. -/
  | expired (todo : List Id)

inductive Stage where
  | upsertGet (service : Service) (event : Event)
  | refreshList (service : Service)
  | refreshGet (service : Service) (id : Id) (todo : List Id)
  | deleteList (serviceId : String)
  | pruneList
  | pruneGet (id : Id) (todo : List Id)
  /-- `MGET` of a search; the documents that are expired are deleted. -/
  | load (ids : List Id)
  | deleteGet (id : Id) (rest : Rest)
  | setGet (d : TaskSearchDocument) (times : List Int) (rest : Rest)
  | write (id : Id) (commands : List Command) (rest : Rest)
  | ended
  /-- A conversion has raised. -/
  | raised

def Rest.stage : Rest → Stage
  | .refresh service (id :: todo) => .refreshGet service id todo
  | .delete (id :: todo) => .deleteGet id (.delete todo)
  | .prune (id :: todo) => .pruneGet id todo
  | .expired (id :: todo) => .deleteGet id (.expired todo)
  | .nothing | .refresh _ [] | .delete [] | .prune [] | .expired [] => .ended

structure State where
  redis : Redis := {}
  now : Int := 0
  calls : List Stage := []

inductive Operation where
  | upsert (service : Service) (event : Event)
  | refresh (service : Service)
  | deleteService (serviceId : String)
  | prune
  | load (ids : List Id)

def Operation.stage : Operation → Stage
  | .upsert service event => .upsertGet service event
  | .refresh service => .refreshList service
  | .deleteService id => .deleteList id
  | .prune => .pruneList
  | .load ids => .load ids

variable (z : Calendar) (ttl : Int)

/-- The next command of a call is executed. -/
def command (g : Redis) (now : Int) : Stage → Option (Redis × Stage)
  | .upsertGet service event =>
    match upserted z ttl now service event (g.docs (service.serviceId, event.taskId)) with
    | none => some (g, .raised)
    | some d => some (g, .setGet d (z.instant event.seenAt).toList .nothing)
  | .refreshList service =>
    some (g, (Rest.refresh service (g.sets (.service service.serviceId))).stage)
  | .refreshGet service id todo =>
    match g.docs id with
    | none => some (g, (Rest.refresh service todo).stage)
    | some d => some (g, .setGet (d.refreshed service) [] (.refresh service todo))
  | .deleteList serviceId => some (g, (Rest.delete (g.sets (.service serviceId))).stage)
  | .pruneList => some (g, (Rest.prune (g.sets .all)).stage)
  | .pruneGet id todo =>
    match (g.docs id).elim (some true) (·.expired z now) with
    | none => some (g, .raised)
    | some true => some (g, .deleteGet id (.prune todo))
    | some false => some (g, (Rest.prune todo).stage)
  | .load ids =>
    match ids.filterM fun id => (g.docs id).elim (some false) (·.expired z now) with
    | none => some (g, .raised)
    | some gone => some (g, (Rest.expired gone).stage)
  | .deleteGet id rest => some (g, .write id (deleteTaskDocument (g.docs id)) rest)
  | .setGet d times rest => some (g, .write d.id (setTaskDocument (g.docs d.id) d times) rest)
  | .write id (command :: []) rest => some (g.exec id command, rest.stage)
  | .write id (command :: commands) rest => some (g.exec id command, .write id commands rest)
  | .write _ [] _ | .ended | .raised => none

inductive Step where
  | call (operation : Operation)
  | command (n : Nat)
  | advance (now : Int)

def next (s : State) : Step → Option State
  | .call operation => some { s with calls := s.calls ++ [operation.stage] }
  | .command n =>
    s.calls[n]?.bind fun stage =>
      (command z ttl s.redis s.now stage).map fun r =>
        { s with redis := r.1, calls := s.calls.set n r.2 }
  | .advance now => if s.now ≤ now then some { s with now } else none

def machine : Machine State Step := ⟨next z ttl⟩

/-! ## Search -/

structure Query where
  value : Field → Option String
  fromTimestamp : Option String
  toTimestamp : Option String
  limit : Int
  cursor : Option (String × String × String)

def Query.filters (q : Query) : List (Field × String) :=
  [Field.serviceId, .taskId, .correlationId, .status, .stage].filterMap fun field =>
    (normalize (q.value field)).map fun value => (field, value)

/-- The ids in the sets of every filter, or all of them. -/
def candidates (g : Redis) (q : Query) : List Id :=
  match q.filters with
  | [] => g.sets .all
  | (field, value) :: more =>
    (g.sets (.filter field value)).filter fun id =>
      more.all fun b => id ∈ g.sets (.filter b.1 b.2)

def withinRange (value : Option Int) (start stop : Option Int) : Bool :=
  match value with
  | none => start.isNone && stop.isNone
  | some t => start.all (· ≤ t) && stop.all (t ≤ ·)

/-- The key that the documents are sorted by, the greatest first; their times have been read. -/
def notBefore (a b : TaskSearchDocument) : Bool :=
  let t := (z.instant a.lastSeenAt).getD z.least
  let u := (z.instant b.lastSeenAt).getD z.least
  u < t ∨ t = u ∧ (b.serviceId < a.serviceId ∨ a.serviceId = b.serviceId ∧ b.taskId ≤ a.taskId)

/-- The documents that are found, before they are sorted and paged, if no conversion raises. -/
def loaded (g : Redis) (now : Int) (q : Query) : Option (List TaskSearchDocument) := do
  let items ← ((candidates g q).filterMap g.docs).filterM fun d => (d.expired z now).map (!·)
  let start ← z.parseDatetime q.fromTimestamp
  let stop ← z.parseDatetime q.toTimestamp
  items.filterM fun d => (z.parseDatetime d.lastSeenAt).map (withinRange · start stop)

def found (g : Redis) (now : Int) (q : Query) : Option (List TaskSearchDocument) :=
  (loaded z g now q).map (·.mergeSort (notBefore z))

def cursorOf (d : TaskSearchDocument) : String × String × String :=
  (d.lastSeenAt.getD "", d.serviceId, d.taskId)

def paginate (items : List TaskSearchDocument) (limit : Int)
    (cursor : Option (String × String × String)) :
    List TaskSearchDocument × Option (String × String × String) :=
  let start := (cursor.bind fun k => items.findIdx? fun d => cursorOf d = k).elim 0 (· + 1)
  let page := (items.drop start).take (max 1 limit).toNat
  (page, if start + page.length < items.length then page.getLast?.map cursorOf else none)

def Query.given (q : Query) : Bool :=
  ([Field.serviceId, .taskId, .correlationId, .status, .stage].any fun field =>
    (q.value field).any (· ≠ "")) || q.fromTimestamp.any (· ≠ "") || q.toTimestamp.any (· ≠ "")

/-- `none` when no filter is given, and when a conversion raises. `logs` is what the logs of the
services say. -/
def searchTasks (g : Redis) (now : Int) (logs : Query → List TaskSearchDocument) (q : Query) :
    Option (List TaskSearchDocument × Option (String × String × String)) :=
  if q.given then
    (found z g now q).map fun items =>
      let page := paginate items q.limit q.cursor
      if page.1 = [] ∧ logs q ≠ [] then paginate (logs q) q.limit q.cursor else page
  else none

/-! ## Overlapping calls -/

def Rest.targets : Rest → List Id
  | .expired todo => todo
  | _ => []

/-- The documents that a call has read and is about to write. -/
def Stage.targets : Stage → List Id
  | .deleteGet id (.prune _) => [id]
  | .deleteGet id (.expired todo) => id :: todo
  | .setGet d _ rest => d.id :: rest.targets
  | .write id _ rest => id :: rest.targets
  | _ => []

/-- No two calls are at the same document. -/
def Apart (s : State) : Prop :=
  s.calls.Pairwise fun a b => ∀ id ∈ a.targets, id ∉ b.targets

instance (s : State) : Decidable (Apart s) := by
  unfold Apart
  infer_instance

/-! ## Times that can be converted -/

/-- The text shows no time, or one that can be written in UTC. -/
def Calendar.Converts (value : Option String) : Prop :=
  ∃ t, z.parseDatetime value = some t ∧ ∀ s ∈ t, (z.shown s).isSome = true

instance (value : Option String) : Decidable (z.Converts value) :=
  decidable_of_iff (∃ t ∈ z.parseDatetime value, ∀ s ∈ t, (z.shown s).isSome = true) Iff.rfl

/-- The event that a call is about to make a document of. -/
def Stage.event : Stage → Option Event
  | .upsertGet _ event => some event
  | _ => none

/-- The times of an event that is about to be stored can be converted, and so can the time when its
document expires. -/
def Convertible (s : State) : Step → Prop
  | .command n => ∀ event ∈ s.calls[n]?.bind Stage.event,
      z.Converts event.timestamp ∧ z.Converts (some event.ingestedAt) ∧
        (z.shown (s.now + max 60000000 ttl)).isSome = true
  | _ => True

instance (s : State) (l : Step) : Decidable (Convertible z ttl s l) := by
  cases l <;> unfold Convertible <;> infer_instance

end Relayna.Studio.TaskSearch
