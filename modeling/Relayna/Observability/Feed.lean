import Mathlib.Data.String.Basic
import Relayna.Contracts.Transport
import Relayna.Foundation.SortedSet
import Relayna.Storage.Keys

/-!
# The service event feed

`RedisServiceEventFeedStore` keeps status events and observations in one feed: a sorted set of
cursors by a growing sequence number, a hash of their payloads, and one key per cursor that keeps
it from being stored again until the key expires. Storing and reading a page are one Lua script
each. The scores are the integers that `INCR` returns, which a sorted set keeps exactly up to
2^53.
-/
namespace Relayna.Observability

open Contracts Python Storage

inductive ServiceEventSourceKind where
  | status
  | observation
  deriving DecidableEq, Repr

structure RelaynaServiceEvent where
  cursor : String
  cursor_ne : cursor ≠ ""
  taskId : String
  eventType : String
  sourceKind : ServiceEventSourceKind
  component : Option String
  timestamp : Option String
  eventId : Option String
  correlationId : Option String
  parentTaskId : Option String
  payload : Fields Value

/-- `model_dump_json` and `model_validate_json`. The first raises on what is not JSON, and what
it writes is read back with the cursor it was written with. -/
structure ServiceEventJson where
  modelDumpJson : RelaynaServiceEvent → Option String
  modelValidateJson : String → Option RelaynaServiceEvent
  roundTrip : ∀ event serialized, modelDumpJson event = some serialized →
    ∃ item, modelValidateJson serialized = some item ∧ item.cursor = event.cursor

/-- A SHA-256 digest is 64 hexadecimal digits. -/
structure RedisServiceEventFeedStore where
  text : Text
  digest_ne : ∀ s, text.sha256 s ≠ ""
  lower : String → String
  json : ServiceEventJson
  keyPrefix : String
  feedMaxlen : Int

namespace RedisServiceEventFeedStore

variable (c : RedisServiceEventFeedStore)

def eventKey (cursor : String) : String :=
  redisKey c.text c.keyPrefix "service-event-feed" ["event", cursor]

/-- `_normalize_string`. -/
def normalizeString (value : Option Value) : Option String :=
  match value with
  | none | some .none => none
  | some v => nonEmpty (strip (c.text.str v))

/-- `_canonical_hash`. -/
def canonicalHash (payload : Fields Value) : String := c.text.sha256 (c.text.dumps (.dict payload))

/-- `event_id or _canonical_hash(cursor_seed)` of a status event. -/
def statusCursor (taskId : String) (event : Fields Value) : String :=
  match c.normalizeString (event.lookup "event_id") with
  | some eventId => eventId
  | none => c.canonicalHash [("source_kind", .str "status"), ("task_id", .str taskId),
    ("event_id", .none), ("payload", .dict event)]

theorem statusCursor_ne (taskId : String) (event : Fields Value) :
    c.statusCursor taskId event ≠ "" := by
  unfold statusCursor
  split
  · rename_i eventId h
    unfold normalizeString at h
    split at h
    · cases h
    · cases h
    · obtain ⟨ne, same⟩ := Option.ite_none_left_eq_some.mp h
      exact Option.some.inj same ▸ ne
  · exact c.digest_ne _

def normalizeStatusFeedEvent (event : Fields Value) : Option RelaynaServiceEvent :=
  (c.normalizeString (event.lookup "task_id")).map fun taskId =>
    { cursor := c.statusCursor taskId event
      cursor_ne := c.statusCursor_ne taskId event
      taskId := taskId
      eventType :=
        "status." ++ c.lower ((c.normalizeString (event.lookup "status")).getD "unknown")
      sourceKind := .status
      component := some "status"
      timestamp := c.normalizeString (event.lookup "timestamp")
      eventId := c.normalizeString (event.lookup "event_id")
      correlationId := c.normalizeString (event.lookup "correlation_id")
      parentTaskId := match event.lookup "meta" with
        | some (.dict fields) => c.normalizeString (fields.lookup "parent_task_id")
        | _ => none
      payload := event }

end RedisServiceEventFeedStore

/-- The keys of the feed. -/
structure FeedKeys where
  events : String → Bool
  sequence : Int
  index : SortedSet String
  payloads : String → Option String

namespace FeedKeys

def init : FeedKeys := ⟨fun _ => false, 0, .empty, fun _ => none⟩

/-- The cursors of the index, newest first. -/
def newestFirst (k : FeedKeys) : List String := k.index.sorted.reverse.map Prod.fst

/-- `_STORE_SERVICE_EVENT_SCRIPT`. -/
def storeScript (k : FeedKeys) (eventKey serialized cursor : String) (feedMaxlen : Int) :
    FeedKeys × Bool :=
  if k.events eventKey then (k, false)
  else
    let sequence := k.sequence + 1
    let index := k.index.add cursor sequence
    let payloads := Function.update k.payloads cursor (some serialized)
    let events := Function.update k.events eventKey true
    let excess := (index.card : Int) - feedMaxlen
    if excess > 0 then
      let evicted := index.lowest excess.toNat
      let payloads := evicted.foldl (fun payloads cursor => Function.update payloads cursor none)
        payloads
      (⟨events, sequence, index.removeLowest excess.toNat, payloads⟩, true)
    else (⟨events, sequence, index, payloads⟩, true)

/-- The cursors that the read script selects. -/
def pageCursors (k : FeedKeys) (after : String) (pageSize : Nat) : List String :=
  if after = "" then k.index.highest (pageSize + 1)
  else match k.index.score after with
    | none => k.index.highest (pageSize + 1)
    | some score => k.index.highestBelow score (pageSize + 1)

/-- `_READ_SERVICE_EVENT_PAGE_SCRIPT`: the cursors of the page with their payloads, or the first
cursor that has none. -/
def readScript (k : FeedKeys) (after : String) (pageSize : Nat) :
    Except String (List (String × String)) :=
  (k.pageCursors after pageSize).mapM fun cursor =>
    match k.payloads cursor with
    | none => .error cursor
    | some payload => .ok (cursor, payload)

end FeedKeys

/-- The errors of `get_feed`: the two `RuntimeError`s and the `ValidationError`. -/
inductive FeedError where
  | missing (cursor : String)
  | mismatch (cursor : String)
  | validation
  deriving DecidableEq, Repr

structure RelaynaServiceEventFeedResponse where
  count : Nat
  items : List RelaynaServiceEvent
  nextCursor : Option String

namespace RedisServiceEventFeedStore

variable (c : RedisServiceEventFeedStore)

/-- `_store`. -/
def store (k : FeedKeys) (event : RelaynaServiceEvent) : FeedKeys × Bool :=
  match c.json.modelDumpJson event with
  | none => (k, false)
  | some serialized =>
    k.storeScript (c.eventKey event.cursor) serialized event.cursor c.feedMaxlen

def addStatusEvent (k : FeedKeys) (event : Fields Value) : FeedKeys × Bool :=
  match c.normalizeStatusFeedEvent event with
  | none => (k, false)
  | some normalized => c.store k normalized

/-- One pair of the reply in `_parse_page`. -/
def parseItem (entry : String × String) : Except FeedError RelaynaServiceEvent :=
  match c.json.modelValidateJson entry.2 with
  | none => .error .validation
  | some item => if item.cursor ≠ entry.1 then .error (.mismatch entry.1) else .ok item

def parsePage (page : Except String (List (String × String))) :
    Except FeedError (List RelaynaServiceEvent) :=
  match page with
  | .error cursor => .error (.missing cursor)
  | .ok values => values.mapM c.parseItem

def getFeed (k : FeedKeys) (after : Option String) (limit : Int) :
    Except FeedError RelaynaServiceEventFeedResponse :=
  let pageSize := (max 1 limit).toNat
  match c.parsePage (k.readScript (after.getD "") pageSize) with
  | .error e => .error e
  | .ok candidates =>
    let page := candidates.take pageSize
    let nextCursor :=
      if candidates.length > pageSize then page.getLast?.map RelaynaServiceEvent.cursor else none
    .ok ⟨page.length, page, nextCursor⟩

end RedisServiceEventFeedStore

end Relayna.Observability
