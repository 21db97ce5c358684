import Relayna.Foundation.Latest
import Relayna.Studio.Events

/-!
# The task search projection

What the studio keeps of a task for its search: one document, or one row, that every event of the
task updates. `upsert_task_document` keeps texts and `_upsert_task_projection` keeps times.

`Summary` is what both of them mean. The times and the latest event come from comparisons, but
status and stage are replaced by whatever event comes next. Events that arrive newest first leave
the oldest status.

An event that the store refuses (a text that is wider than its column or holds a NUL) is not stored,
and never gets here.
-/
namespace Relayna.Studio.TaskProjection

open Python Contracts Events Observability Latest

/-- `datetime` as the projections use it. Instants are in microseconds. -/
structure Calendar where
  text : Text
  fromisoformat : String → Option DateTime
  /-- The offset of the local time at a naive wall clock. -/
  localOffset : Int → Int
  /-- `value.isoformat()` of a time in UTC. -/
  isoformat : Int → String
  /-- `_isoformat`. -/
  isoformatZ : Int → String

namespace Calendar

variable (c : Calendar)

/-- The text that is parsed: `None` for one that is blank. -/
def normalize (value : String) : Option String :=
  let normalized := strip value
  if normalized = "" then none
  else if normalized.toList.getLast? = some 'Z' then
    some (String.ofList normalized.toList.dropLast ++ "+00:00")
  else some normalized

/-- `_parse_datetime` of the search: a naive time is local. -/
def parseDatetime (value : Option String) : Option Int :=
  ((value.bind normalize).bind c.fromisoformat).map fun d =>
    d.wall - d.utcoffset.getD (c.localOffset d.wall)

/-- `_parse_timestamp` of the events: a naive time is in UTC. -/
def parseTimestamp (value : Option String) : Option Int :=
  ((value.bind normalize).bind c.fromisoformat).map fun d => d.wall - d.utcoffset.getD 0

/-- `_later_iso`. -/
def laterIso (left right : Option String) : Option String :=
  match c.parseDatetime left, c.parseDatetime right with
  | none, r => r.map c.isoformatZ
  | some l, none => some (c.isoformatZ l)
  | some l, some r => some (c.isoformatZ (max l r))

/-- `_earlier_iso`. -/
def earlierIso (left right : Option String) : Option String :=
  match c.parseDatetime left, c.parseDatetime right with
  | none, r => r.map c.isoformatZ
  | some l, none => some (c.isoformatZ l)
  | some l, some r => some (c.isoformatZ (min l r))

/-- `_is_not_earlier`. -/
def isNotEarlier (left right : Option String) : Bool :=
  match c.parseDatetime left, c.parseDatetime right with
  | none, _ => false
  | some _, none => true
  | some l, some r => r ≤ l

/-- `_normalize_optional_string` and `_optional_text`. -/
def optionalText (value : Option Value) : Option String :=
  match value with
  | none | some .none => none
  | some v => nonEmpty (strip (c.text.str v))

end Calendar

/-! ## The two projections -/

/-- What is read of a service. -/
structure ServiceRecord where
  serviceId : String
  name : String
  environment : String

structure StudioTaskSearchDocument where
  serviceId : String
  serviceName : String
  environment : String
  taskId : String
  correlationId : Option String
  status : Option String
  stage : Option String
  firstSeenAt : Option String
  lastSeenAt : Option String
  latestEventType : Option String
  latestEventAt : Option String
  latestIngestedAt : Option String
  detailPath : String
  expiresAt : Option String := none

/-- A row of `task_projections`. -/
structure TaskProjectionRow where
  serviceId : String
  taskId : String
  serviceName : String
  environment : String
  correlationId : Option String
  status : Option String
  stage : Option String
  firstSeenAt : Option Int
  lastSeenAt : Option Int
  latestEventType : Option String
  latestEventAt : Option Int
  latestIngestedAt : Option Int
  detailPath : String
  expiresAt : Option Int

def detailPath (serviceId taskId : String) : String :=
  "/studio/tasks/" ++ serviceId ++ "/" ++ taskId

/-- `left or right` of texts. -/
def orElse (left right : Option String) : Option String := (left.filter (· ≠ "")).or right

namespace Calendar

variable (c : Calendar)

def status (event : StudioControlPlaneEvent) : Option String :=
  c.optionalText (event.event.payload.lookup "status")

def stage (event : StudioControlPlaneEvent) : Option String :=
  c.optionalText (event.event.payload.lookup "stage")

/-- `upsert_task_document`, with the document that is stored. -/
def upsertTaskDocument (taskIndexTtlSeconds : Int) (service : ServiceRecord)
    (existing : Option StudioTaskSearchDocument) (event : StudioControlPlaneEvent) (now : Int) :
    StudioTaskSearchDocument :=
  let ingestedAt := some (c.isoformat event.ingestedAt)
  let nextTimestamp := orElse event.event.timestamp ingestedAt
  let current := existing.getD
    { serviceId := service.serviceId
      serviceName := service.name
      environment := service.environment
      taskId := event.event.taskId
      correlationId := event.event.correlationId
      status := c.status event
      stage := c.stage event
      firstSeenAt := nextTimestamp
      lastSeenAt := nextTimestamp
      latestEventType := some event.event.eventType
      latestEventAt := event.event.timestamp
      latestIngestedAt := ingestedAt
      detailPath := detailPath service.serviceId event.event.taskId }
  let replaces := c.isNotEarlier nextTimestamp current.latestEventAt
  { current with
    serviceName := service.name
    environment := service.environment
    correlationId := orElse event.event.correlationId current.correlationId
    status := (c.status event).or current.status
    stage := (c.stage event).or current.stage
    firstSeenAt := c.earlierIso current.firstSeenAt nextTimestamp
    lastSeenAt := c.laterIso current.lastSeenAt nextTimestamp
    latestEventType := if replaces then some event.event.eventType else current.latestEventType
    latestEventAt := if replaces then (c.parseDatetime nextTimestamp).map c.isoformatZ
      else current.latestEventAt
    latestIngestedAt := c.laterIso current.latestIngestedAt ingestedAt
    detailPath := detailPath service.serviceId event.event.taskId
    expiresAt := some (c.isoformatZ (now + max 60 taskIndexTtlSeconds * 1000000)) }

/-- `min(row[...], event_at)` or `max(row[...], event_at)`, or `event_at` alone. -/
def combine (f : Int → Int → Int) (seen : Option Int) (eventAt : Int) : Int :=
  (seen.map fun s => f s eventAt).getD eventAt

/-- `_upsert_task_projection`, with the row that is stored. The name and the environment of the
service are written by the insert alone. -/
def upsertTaskProjection (serviceName environment : String) (ttlSeconds : Int)
    (row : Option TaskProjectionRow) (event : StudioControlPlaneEvent) (now : Int) :
    TaskProjectionRow :=
  let ingestedAt := event.ingestedAt
  let eventAt := (c.parseTimestamp event.event.timestamp).getD ingestedAt
  let currentLatest := row.bind TaskProjectionRow.latestEventAt
  let useEventAsLatest := currentLatest.all (· ≤ eventAt)
  { serviceId := event.serviceId
    taskId := event.event.taskId
    serviceName := (row.map TaskProjectionRow.serviceName).getD serviceName
    environment := (row.map TaskProjectionRow.environment).getD environment
    correlationId := orElse event.event.correlationId (row.bind TaskProjectionRow.correlationId)
    status := (c.status event).or (row.bind TaskProjectionRow.status)
    stage := (c.stage event).or (row.bind TaskProjectionRow.stage)
    firstSeenAt := some (combine min (row.bind TaskProjectionRow.firstSeenAt) eventAt)
    lastSeenAt := some (combine max (row.bind TaskProjectionRow.lastSeenAt) eventAt)
    latestEventType := if useEventAsLatest || row.isNone then some event.event.eventType
      else row.bind TaskProjectionRow.latestEventType
    latestEventAt := if useEventAsLatest then some eventAt else currentLatest
    latestIngestedAt := some (combine max (row.bind TaskProjectionRow.latestIngestedAt) ingestedAt)
    detailPath := detailPath event.serviceId event.event.taskId
    expiresAt := some (now + ttlSeconds * 1000000) }

/-- The document after the events of a task were indexed, each at some time. -/
def documentOf (taskIndexTtlSeconds : Int) (service : ServiceRecord)
    (now : StudioControlPlaneEvent → Int) (es : List StudioControlPlaneEvent) :
    Option StudioTaskSearchDocument :=
  es.foldl (fun doc e => some (c.upsertTaskDocument taskIndexTtlSeconds service doc e (now e))) none

/-- The row after the events of a task were inserted. -/
def rowOf (serviceName environment : String) (ttlSeconds : Int)
    (now : StudioControlPlaneEvent → Int) (es : List StudioControlPlaneEvent) :
    Option TaskProjectionRow :=
  es.foldl (fun row e => some (c.upsertTaskProjection serviceName environment ttlSeconds row e
    (now e))) none

end Calendar

end Relayna.Studio.TaskProjection
