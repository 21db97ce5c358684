import Relayna.Foundation.Descending
import Relayna.Studio.SearchCursors
import Relayna.Studio.TaskSearch

/-!
# Pages of task search

The Redis store sorts what it finds and looks the cursor of a page up in it. The PostgreSQL store
keeps times as instants and compares every row with the position of the cursor. A time without an
offset is a local time to the first and a time in UTC to the second, and the texts that rows are
sorted by are in the order of the database.

The cursor of a query is its text, beside the query.
-/
namespace Relayna.Studio.TaskPages

open Python Contracts Search TaskSearch

/-! ## Times -/

section Times

variable (z : Calendar)

/-- A time in UTC that `datetime` can show. -/
abbrev Instant : Type := { t : Int // (z.shown t).isSome = true }

/-- A time without an offset is a time in UTC; the conversion of another may raise. -/
def inUtc (t : Int × Option Int) : Option (Instant z) :=
  if h : (z.shown (t.1 - t.2.getD 0)).isSome = true then some ⟨_, h⟩ else none

/-- `_dt` of the database, which is `_parse_timestamp`. -/
def dt (value : Option String) : Option (Option (Instant z)) :=
  match (value.map strip).filter (· ≠ "") with
  | none => some none
  | some text =>
    match z.fromIsoformat (Calendar.offsetOf text) with
    | none => some none
    | some t => (inUtc z t).map some

/-- `_iso_or_none`. -/
def isoOrNone (value : Option (Instant z)) : Option String :=
  value.map fun t => (z.shown t.1).get t.2 ++ "Z"

end Times

/-! ## Redis -/

section Redis

variable (z : Calendar)

/-- `set_task_document`, with nothing in between. -/
def store (g : Redis) (d : TaskSearchDocument) : Redis :=
  (setTaskDocument (g.docs d.id) d []).foldl (·.exec d.id ·) g

def stored (docs : List TaskSearchDocument) : Redis := docs.foldl store {}

/-- What a document is sorted by, the greatest first. -/
def byLastSeen (a b : TaskSearchDocument) : Ordering :=
  compareLex (compareOn fun d : TaskSearchDocument => (z.instant d.lastSeenAt).getD z.least)
    (compareLex (compareOn fun d => d.serviceId) (compareOn fun d => d.taskId)) a b

/-- The sorted list that is paged, if no conversion raises. -/
def filtered (g : Redis) (now : Int) (q : Query) : Option (List TaskSearchDocument) :=
  (loaded z g now q).map (Descending.sort (byLastSeen z))

def position (d : TaskSearchDocument) : Fields String :=
  [("last_seen_at", d.lastSeenAt.getD ""), ("service_id", d.serviceId), ("task_id", d.taskId)]

def redisPage (codec : CursorCodec) (g : Redis) (now : Int) (q : Query) (cursor : Option String) :
    Option (List TaskSearchDocument × Option String) :=
  (filtered z g now q).bind fun items => codec.paginate position items q.limit cursor

end Redis

/-! ## PostgreSQL -/

/-- The order of the database on texts, which is that of its collation. -/
structure Collation where
  cmp : String → String → Ordering
  trans : Std.TransCmp cmp
  lawful : Std.LawfulEqCmp cmp

/-- A row of `studio_task_search_projections`. -/
structure TaskRow (z : Calendar) where
  serviceId : String
  taskId : String
  serviceName : String
  environment : String
  correlationId : Option String
  status : Option String
  stage : Option String
  firstSeenAt : Option (Instant z)
  lastSeenAt : Option (Instant z)
  latestEventType : Option String
  latestEventAt : Option (Instant z)
  latestIngestedAt : Option (Instant z)
  detailPath : String
  expiresAt : Option (Instant z)
  deriving DecidableEq

section Postgres

variable (z : Calendar) (collation : Collation)

/-- `_task_values`, if no conversion raises. -/
def taskValues (d : TaskSearchDocument) : Option (TaskRow z) := do
  let firstSeenAt ← dt z d.firstSeenAt
  let lastSeenAt ← dt z d.lastSeenAt
  let latestEventAt ← dt z d.latestEventAt
  let latestIngestedAt ← dt z d.latestIngestedAt
  let expiresAt ← dt z d.expiresAt
  return {
    serviceId := d.serviceId
    taskId := d.taskId
    serviceName := d.serviceName
    environment := d.environment
    correlationId := d.correlationId
    status := d.status
    stage := d.stage
    firstSeenAt := firstSeenAt
    lastSeenAt := lastSeenAt
    latestEventType := d.latestEventType
    latestEventAt := latestEventAt
    latestIngestedAt := latestIngestedAt
    detailPath := d.detailPath
    expiresAt := expiresAt }

/-- `_task_from_row`. -/
def taskFromRow (row : TaskRow z) : TaskSearchDocument where
  serviceId := row.serviceId
  serviceName := row.serviceName
  environment := row.environment
  taskId := row.taskId
  correlationId := row.correlationId
  status := row.status
  stage := row.stage
  firstSeenAt := isoOrNone z row.firstSeenAt
  lastSeenAt := isoOrNone z row.lastSeenAt
  latestEventType := row.latestEventType
  latestEventAt := isoOrNone z row.latestEventAt
  latestIngestedAt := isoOrNone z row.latestIngestedAt
  detailPath := row.detailPath
  expiresAt := isoOrNone z row.expiresAt

/-- The columns that a query may name, which may be null. -/
def TaskRow.column {z : Calendar} (row : TaskRow z) : Field → Option String
  | .serviceId => some row.serviceId
  | .taskId => some row.taskId
  | .correlationId => row.correlationId
  | .status => row.status
  | .stage => row.stage

/-- A bound that is given is read, or the search is refused. -/
def bound (value : Option String) : Option (Option (Instant z)) :=
  match value.filter (· ≠ "") with
  | none => some none
  | some text => (dt z (some text)).bind (·.map some)

/-- PostgreSQL takes no text with a NUL in it. -/
def sendable (text : String) : Bool := '\x00' ∉ text.toList

/-- What a row is compared by, where `datetime.min` stands for a missing time. -/
structure Boundary where
  lastSeenAt : Int
  serviceId : String
  taskId : String
  deriving DecidableEq, Repr

def TaskRow.boundary {z : Calendar} (row : TaskRow z) : Boundary :=
  ⟨(row.lastSeenAt.map Subtype.val).getD z.least, row.serviceId, row.taskId⟩

/-- The comparison of tuples. -/
def cmpTuple (a b : Boundary) : Ordering :=
  compareLex (compareOn Boundary.lastSeenAt)
    (compareLex (fun x y => collation.cmp x.serviceId y.serviceId)
      (fun x y => collation.cmp x.taskId y.taskId)) a b

/-- The position of a cursor, if it can be read and sent. -/
def boundaryOf (codec : CursorCodec) (cursor : String) : Option Boundary := do
  let fields ← codec.decodeCursor cursor
  if (fields.map (·.1)).Perm ["last_seen_at", "service_id", "task_id"] then
    let lastSeenAt ← dt z (fields.lookup "last_seen_at")
    let serviceId := (fields.lookup "service_id").getD ""
    let taskId := (fields.lookup "task_id").getD ""
    if sendable serviceId ∧ sendable taskId then
      return ⟨(lastSeenAt.map Subtype.val).getD z.least, serviceId, taskId⟩
    else none
  else none

/-- The rows of a query, before those of earlier pages are left out. -/
def passes (now : Int) (filters : List (Field × String)) (start stop : Option (Instant z))
    (row : TaskRow z) : Bool :=
  row.expiresAt.all (now < ·.1) && filters.all (fun f => row.column f.1 = some f.2) &&
    start.all (fun s => row.lastSeenAt.any (s.1 ≤ ·.1)) &&
    stop.all (fun s => row.lastSeenAt.any (·.1 ≤ s.1))

/-- The rows that a page may show: those after the position of the cursor. -/
def afterCursor (codec : CursorCodec) (cursor : Option String) : Option (TaskRow z → Bool) :=
  match cursor.filter (· ≠ "") with
  | none => some fun _ => true
  | some text => (boundaryOf z codec text).map fun boundary row =>
    cmpTuple collation row.boundary boundary = .lt

def byBoundary (a b : TaskRow z) : Ordering := cmpTuple collation a.boundary b.boundary

/-- `_search_task_page`; `none` is a `ValueError`, an `OverflowError` or a statement that
PostgreSQL refuses. -/
def searchTaskPage (codec : CursorCodec) (rows : List (TaskRow z)) (now : Int) (q : Query)
    (cursor : Option String) : Option (List TaskSearchDocument × Option String) := do
  let start ← bound z q.fromTimestamp
  let stop ← bound z q.toTimestamp
  let below ← afterCursor z collation codec cursor
  if q.filters.all (sendable ·.2) then
    let found := Descending.sort (byBoundary z collation)
      (rows.filter fun row => passes z now q.filters start stop row && below row)
    let limit := (max 1 q.limit).toNat
    let documents := (found.take (limit + 1)).map (taskFromRow z)
    let page := documents.take limit
    return (page, if page.length < documents.length then
      page.getLast?.map fun last => codec.encodeCursor (position last) else none)
  else none

end Postgres

/-! ## The same documents in both -/

/-- Unexpired documents, with times as the indexer stores them, that both stores hold. -/
structure TaskDocuments (z : Calendar) (now : Int) where
  docs : List TaskSearchDocument
  distinct : (docs.map TaskSearchDocument.id).Nodup
  lastSeen : ∀ d ∈ docs, ∃ t, z.isoformat t = some d.lastSeenAt
  unexpired : ∀ d ∈ docs, ∃ t, z.isoformat t = some d.expiresAt ∧ ∀ s ∈ t, now < s
  storable : ∀ d ∈ docs, (taskValues z d).isSome = true ∧ sendable d.serviceId = true ∧
    sendable d.taskId = true

end Relayna.Studio.TaskPages
