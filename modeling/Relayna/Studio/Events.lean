import Relayna.Foundation.Transition
import Relayna.Observability.Feed

/-!
# The event store of the studio

`insert_event` reads the latest timestamps, sets a marker key that admits each event once, and then
pushes the event to its histories in one pipeline. `ingest_events` hands an inserted event to the
search index after that. Between two awaited commands other calls run and commands fail.

The keys of one kind differ from those of another in a fixed part of their name, so each kind is a
map of its own. The keys of a task are named by `service_id:task_id`, which does not always tell
two tasks apart. `datetime.fromisoformat` is a parameter. A timestamp whose time in UTC is outside
the calendar raises while the pipeline is built, which is a pipeline that fails before its first
command.
-/
namespace Relayna.Studio.Events

open Python Contracts Storage Transition Observability

/-! ## Keys that expire -/

/-- A value with the time its key expires at. -/
structure Cell (α : Type) where
  value : α
  deadline : Option Int

/-- What a command finds under the key. -/
def live {α : Type} (clock : Int) (cell : Option (Cell α)) : Option (Cell α) :=
  cell.filter fun c => c.deadline.all (clock < ·)

def read {α : Type} (clock : Int) (cell : Option (Cell α)) : Option α :=
  (live clock cell).map Cell.value

/-! ## Events -/

/-- A `datetime`, in microseconds of its own wall clock. -/
structure DateTime where
  wall : Int
  utcoffset : Option Int
  deriving DecidableEq, Repr

inductive StudioEventIngestMethod
  | push | pull
  deriving DecidableEq, Repr

structure StudioEventEnvelope where
  serviceId : String
  ingestMethod : StudioEventIngestMethod
  event : RelaynaServiceEvent

/-- The fields that the store adds to those of the envelope. -/
structure StudioControlPlaneEvent extends StudioEventEnvelope where
  ingestedAt : Int
  dedupeKey : String
  outOfOrder : Bool

structure RedisStudioEventStore where
  text : Text
  fromisoformat : String → Option DateTime
  ttlSeconds : Option Nat
  historyMaxlen : Int

def ServiceEventSourceKind.name : ServiceEventSourceKind → String
  | .status => "status"
  | .observation => "observation"

/-- What the keys of a task are named by. -/
def StudioEventEnvelope.taskScope (e : StudioEventEnvelope) : String :=
  e.serviceId ++ ":" ++ e.event.taskId

namespace RedisStudioEventStore

variable (c : RedisStudioEventStore)

/-- `_parse_timestamp`: the instant in microseconds. -/
def parseTimestamp (value : String) : Option Int :=
  let normalized := strip value
  if normalized = "" then none
  else
    let iso :=
      if normalized.toList.getLast? = some 'Z' then
        String.ofList normalized.toList.dropLast ++ "+00:00"
      else normalized
    (c.fromisoformat iso).map fun d => d.wall - d.utcoffset.getD 0

/-- `_timestamp_key(a) < _timestamp_key(b)`: what cannot be parsed is the least. -/
def earlier (a b : String) : Bool :=
  match c.parseTimestamp a, c.parseTimestamp b with
  | some x, some y => x < y
  | none, some _ => true
  | _, none => false

/-- `_event_dedupe_key`. -/
def eventDedupeKey (serviceId : String) (event : RelaynaServiceEvent) : String :=
  let kind := ServiceEventSourceKind.name event.sourceKind
  match event.eventId with
  | some eventId => serviceId ++ ":" ++ kind ++ ":" ++ eventId
  | none =>
    let payload := c.text.dumps (.dict [("service_id", .str serviceId),
      ("source_kind", .str kind), ("task_id", .str event.taskId),
      ("event_type", .str event.eventType),
      ("timestamp", event.timestamp.elim .none .str), ("payload", .dict event.payload)])
    serviceId ++ ":" ++ kind ++ ":" ++ event.cursor ++ ":" ++ c.text.sha256 payload

def dedupeKey (e : StudioEventEnvelope) : String := c.eventDedupeKey e.serviceId e.event

/-- The deadline of a key that is written now. -/
def deadline (clock : Int) : Option Int :=
  (c.ttlSeconds.filter (· ≠ 0)).map fun (ttl : Nat) => clock + (ttl : Int) * 1000000

end RedisStudioEventStore

/-! ## The keys -/

structure EventKeys where
  events : String → Option (Cell StudioControlPlaneEvent) := fun _ => none
  serviceHistory : String → Option (Cell (List String)) := fun _ => none
  taskHistory : String → Option (Cell (List String)) := fun _ => none
  taskLatest : String → Option (Cell String) := fun _ => none
  serviceLatest : ServiceEventSourceKind → String → Option (Cell String) := fun _ _ => none
  latestIngested : String → Option (Cell Int) := fun _ => none

/-- The reply to the `MGET`. -/
structure Latest where
  task : Option String
  status : Option String
  observation : Option String

def Latest.ofKind (r : Latest) : ServiceEventSourceKind → Option String
  | .status => r.status
  | .observation => r.observation

def EventKeys.mget (k : EventKeys) (clock : Int) (e : StudioEventEnvelope) : Latest where
  task := read clock (k.taskLatest e.taskScope)
  status := read clock (k.serviceLatest .status e.serviceId)
  observation := read clock (k.serviceLatest .observation e.serviceId)

namespace RedisStudioEventStore

variable (c : RedisStudioEventStore)

/-- The event as it is stored, after the `MGET` has replied. -/
def normalized (clock : Int) (r : Latest) (e : StudioEventEnvelope) : StudioControlPlaneEvent :=
  { e with
    ingestedAt := clock
    dedupeKey := c.dedupeKey e
    outOfOrder := r.task.any fun latest => e.event.timestamp.any fun t => c.earlier t latest }

/-- Whether the pipeline sets the key whose value was read. -/
def advances (timestamp latest : Option String) : Bool :=
  timestamp.any fun t => latest.all fun l => c.earlier l t

/-- `LPUSH`, `LTRIM` and `EXPIRE` of a history. -/
def push (clock : Int) (history : Option (Cell (List String))) (key : String) :
    Cell (List String) where
  value := ltrim (key :: (read clock history).getD []) 0 (c.historyMaxlen - 1)
  deadline := c.deadline clock <|> (live clock history).bind Cell.deadline

/-- `SET` and `EXPIRE` of a latest timestamp, if the event advances what was read. -/
def setLatest (clock : Int) (timestamp latest : Option String) (cell : Option (Cell String)) :
    Option (Cell String) :=
  if c.advances timestamp latest then timestamp.map fun t => ⟨t, c.deadline clock⟩ else cell

/-- The pipeline of `insert_event`. -/
def pipeline (clock : Int) (k : EventKeys) (r : Latest) (e : StudioControlPlaneEvent) : EventKeys :=
  { k with
    serviceHistory := Function.update k.serviceHistory e.serviceId
      (some (c.push clock (k.serviceHistory e.serviceId) e.dedupeKey))
    taskHistory := Function.update k.taskHistory e.taskScope
      (some (c.push clock (k.taskHistory e.taskScope) e.dedupeKey))
    taskLatest := Function.update k.taskLatest e.taskScope
      (c.setLatest clock e.event.timestamp r.task (k.taskLatest e.taskScope))
    serviceLatest := Function.update k.serviceLatest e.event.sourceKind
      (Function.update (k.serviceLatest e.event.sourceKind) e.serviceId
        (c.setLatest clock e.event.timestamp (r.ofKind e.event.sourceKind)
          (k.serviceLatest e.event.sourceKind e.serviceId)))
    latestIngested := Function.update k.latestIngested e.serviceId
      (some ⟨e.ingestedAt, c.deadline clock⟩) }

end RedisStudioEventStore

/-! ## Calls -/

/-- The command that the ingestion of one event awaits next, or how it ended. -/
inductive Call
  | getService
  | mget
  | set (r : Latest) (e : StudioControlPlaneEvent)
  | pipeline (r : Latest) (e : StudioControlPlaneEvent)
  | index
  /-- Counted as `invalid`: the service is not registered. -/
  | invalid
  | inserted
  | duplicate
  | raised

structure StudioEventIngestService where
  eventStore : RedisStudioEventStore
  registered : String → Bool
  searchIndexer : Bool

/-- The store, the calls and what they have done: `ids` and `started` hold the numbers and events of
all calls, `pushed` the events whose pipeline has run, which also publishes them, and
`trimmedService` and `trimmedTask` the history entries that `LTRIM` has dropped since they were
pushed. -/
structure Ingest where
  clock : Int := 0
  keys : EventKeys := {}
  calls : Nat → Option (StudioEventEnvelope × Call) := fun _ => none
  ids : List Nat := []
  started : List StudioEventEnvelope := []
  pushed : List StudioControlPlaneEvent := []
  indexed : List StudioEventEnvelope := []
  trimmedService : List (String × String) := []
  trimmedTask : List (String × String) := []

/-- The entries a push leaves out, for the record. -/
def trim (c : RedisStudioEventStore) (clock : Int) (history : Option (Cell (List String)))
    (scope key : String) (trimmed : List (String × String)) : List (String × String) :=
  trimmed.filter (· ≠ (scope, key)) ++
    ((key :: (read clock history).getD []).drop (c.push clock history key).value.length).map
      (scope, ·)

namespace StudioEventIngestService

variable (c : StudioEventIngestService)

def move (s : Ingest) (n : Nat) (e : StudioEventEnvelope) (p : Call) : Ingest :=
  { s with calls := Function.update s.calls n (some (e, p)) }

/-- What the pipeline of a call does. -/
def runPipeline (s : Ingest) (r : Latest) (e : StudioControlPlaneEvent) : Ingest :=
  { s with
    keys := c.eventStore.pipeline s.clock s.keys r e
    pushed := s.pushed ++ [e]
    trimmedService := trim c.eventStore s.clock (s.keys.serviceHistory e.serviceId) e.serviceId
      e.dedupeKey s.trimmedService
    trimmedTask := trim c.eventStore s.clock (s.keys.taskHistory e.taskScope) e.taskScope
      e.dedupeKey s.trimmedTask }

/-- `SET NX` of the marker. -/
def setMarker (s : Ingest) (e : StudioControlPlaneEvent) : Ingest :=
  let cell : Cell StudioControlPlaneEvent := ⟨e, c.eventStore.deadline s.clock⟩
  let events := Function.update s.keys.events e.dedupeKey (some cell)
  { s with keys := { s.keys with events := events } }

/-- One awaited command of the call and what the call does up to the next. -/
def await (s : Ingest) (n : Nat) (e : StudioEventEnvelope) : Call → Option Ingest
  | .getService => some (move s n e (if c.registered e.serviceId then .mget else .invalid))
  | .mget =>
    let r := s.keys.mget s.clock e
    some (move s n e (.set r (c.eventStore.normalized s.clock r e)))
  | .set r event =>
    match live s.clock (s.keys.events event.dedupeKey) with
    | some _ => some (move s n e .duplicate)
    | none => some (move (c.setMarker s event) n e (.pipeline r event))
  | .pipeline r event =>
    some (move (c.runPipeline s r event) n e (if c.searchIndexer then .index else .inserted))
  | .index => some (move { s with indexed := s.indexed ++ [e] } n e .inserted)
  | .invalid | .inserted | .duplicate | .raised => none

end StudioEventIngestService

inductive IngestStep
  | clock (now : Int)
  /-- The loop in `ingest_events` comes to the event. -/
  | start (n : Nat) (e : StudioEventEnvelope)
  | await (n : Nat)
  /-- The awaited command raises and takes no effect. -/
  | raise (n : Nat)

def Call.ended : Call → Bool
  | .invalid | .inserted | .duplicate | .raised => true
  | _ => false

open StudioEventIngestService in
def next (c : StudioEventIngestService) (s : Ingest) : IngestStep → Option Ingest
  | .clock now => if s.clock ≤ now then some { s with clock := now } else none
  | .start n e =>
    match s.calls n with
    | none => some (move { s with ids := n :: s.ids, started := e :: s.started } n e .getService)
    | some _ => none
  | .await n =>
    match s.calls n with
    | none => none
    | some (e, p) => c.await s n e p
  | .raise n =>
    match s.calls n with
    | none => none
    | some (e, p) => if p.ended then none else some (move s n e .raised)

def machine (c : StudioEventIngestService) : Machine Ingest IngestStep := ⟨next c⟩

/-! ## What a step can do -/

section Taken

variable (c : StudioEventIngestService) (s : Ingest)

open StudioEventIngestService

/-- Every step that is taken, with the state it leads to. -/
inductive Taken : IngestStep → Ingest → Prop
  | clock {now : Int} (later : s.clock ≤ now) : Taken (.clock now) { s with clock := now }
  | start {n : Nat} (e : StudioEventEnvelope) (new : s.calls n = none) :
      Taken (.start n e)
        (move { s with ids := n :: s.ids, started := e :: s.started } n e .getService)
  | getService {n : Nat} {e : StudioEventEnvelope} (here : s.calls n = some (e, .getService)) :
      Taken (.await n) (move s n e (if c.registered e.serviceId then .mget else .invalid))
  | mget {n : Nat} {e : StudioEventEnvelope} (here : s.calls n = some (e, .mget)) :
      Taken (.await n) (move s n e (.set (s.keys.mget s.clock e)
        (c.eventStore.normalized s.clock (s.keys.mget s.clock e) e)))
  | duplicate {n : Nat} {e : StudioEventEnvelope} {r : Latest} {event : StudioControlPlaneEvent}
      {cell : Cell StudioControlPlaneEvent} (here : s.calls n = some (e, .set r event))
      (found : live s.clock (s.keys.events event.dedupeKey) = some cell) :
      Taken (.await n) (move s n e .duplicate)
  | marked {n : Nat} {e : StudioEventEnvelope} {r : Latest} {event : StudioControlPlaneEvent}
      (here : s.calls n = some (e, .set r event))
      (absent : live s.clock (s.keys.events event.dedupeKey) = none) :
      Taken (.await n) (move (c.setMarker s event) n e (.pipeline r event))
  | pipeline {n : Nat} {e : StudioEventEnvelope} {r : Latest} {event : StudioControlPlaneEvent}
      (here : s.calls n = some (e, .pipeline r event)) :
      Taken (.await n) (move (c.runPipeline s r event) n e
        (if c.searchIndexer then .index else .inserted))
  | index {n : Nat} {e : StudioEventEnvelope} (here : s.calls n = some (e, .index)) :
      Taken (.await n) (move { s with indexed := s.indexed ++ [e] } n e .inserted)
  | raise {n : Nat} {e : StudioEventEnvelope} {p : Call} (here : s.calls n = some (e, p))
      (going : p.ended = false) : Taken (.raise n) (move s n e .raised)

variable {c s}

theorem taken_of_next {t : Ingest} {l : IngestStep} (h : next c s l = some t) : Taken c s l t := by
  cases l with
  | clock now =>
    obtain ⟨later, rfl⟩ : s.clock ≤ now ∧ { s with clock := now } = t := by
      simpa [next] using h
    exact .clock later
  | start n e =>
    simp only [next] at h
    split at h
    · next new =>
      obtain rfl := Option.some.inj h
      exact .start e new
    · cases h
  | await n =>
    simp only [next] at h
    split at h
    · cases h
    · next e p here =>
      cases p with
      | getService =>
        obtain rfl := Option.some.inj h
        exact .getService here
      | mget =>
        obtain rfl := Option.some.inj h
        exact .mget here
      | set r event =>
        simp only [StudioEventIngestService.await] at h
        split at h
        · next cell found =>
          obtain rfl := Option.some.inj h
          exact .duplicate here found
        · next absent =>
          obtain rfl := Option.some.inj h
          exact .marked here absent
      | pipeline r event =>
        obtain rfl := Option.some.inj h
        exact .pipeline here
      | index =>
        obtain rfl := Option.some.inj h
        exact .index here
      | invalid => cases h
      | inserted => cases h
      | duplicate => cases h
      | raised => cases h
  | raise n =>
    simp only [next] at h
    split at h
    · cases h
    · next e p here =>
      split at h
      · cases h
      · next going =>
        obtain rfl := Option.some.inj h
        exact .raise here (by simpa using going)

end Taken

end Relayna.Studio.Events
