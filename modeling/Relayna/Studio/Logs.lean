import Relayna.Contracts.Transport
import Relayna.Foundation.Descending
import Relayna.Foundation.Names

/-!
# Log lines of a service, page by page

`query_logs` of `LokiLogProvider`. A request asks Loki for the newest lines before a bound, for one
line more than the page holds and for those that the page before it has shown already. The position
that is handed on is the timestamp of the last line shown and, if lines with that timestamp are
left, how many of them were shown.

What `_build_query` makes of the filters is a parameter: it is the same text in every request. So
are the configuration after its profile and `datetime`.
-/
namespace Relayna.Studio.Logs

open Python Contracts

inductive LogError
  /-- A request that does not validate. -/
  | value (message : String)
  | provider (message : String)
  | config (message : String)
  /-- The errors that `int` and `datetime` raise for a timestamp. -/
  | conversion
  deriving DecidableEq, Repr

structure Builtins where
  text : Text
  isdigit : Char → Bool
  isdigit_of_isDigit : ∀ c, c.isDigit = true → isdigit c = true
  isdigit_plain : ∀ c, isdigit c = true → isSpace c = false ∧ c ≠ ':'
  /-- `fromisoformat`, then `isoformat` in UTC. -/
  isoUtc : String → Option String
  /-- `isoformat` is read back, and has a digit in front and colons. -/
  isoUtc_isoUtc : ∀ value iso, isoUtc value = some iso → isoUtc iso = some iso ∧
    strip iso = iso ∧ ':' ∈ iso.toList ∧ iso.toList.head?.any Char.isDigit = true
  /-- The nanoseconds of an ISO time. -/
  isoNs : String → Option String
  isoNs_isoUtc : ∀ value iso, isoUtc value = some iso → (isoNs iso).isSome
  /-- The ISO time of seconds and microseconds. -/
  utcIso : Nat → Nat → Option String
  utcIso_isSome : ∀ seconds micros, seconds ≤ 253402300799 → (utcIso seconds micros).isSome

structure LokiLogConfig where
  sourceLabel : Option String := none
  taskIdLabel : Option String := none
  correlationIdLabel : Option String := none
  levelLabel : Option String := none

structure LogFields where
  labels : Fields String
  lokiCursor : String
  deriving DecidableEq, Repr

structure StudioLogEntry where
  serviceId : String
  taskId : Option String
  correlationId : Option String
  timestamp : String
  level : Option String
  source : String
  message : String
  fields : LogFields
  deriving DecidableEq, Repr

structure StudioLogListResponse where
  count : Nat
  items : List StudioLogEntry
  nextCursor : Option String
  deriving DecidableEq, Repr

structure Request where
  query : String
  limit : Nat
  start : Option String
  stop : Option String

inductive Reply
  | refused (message : String)
  | failed
  | answered (statusCode : Nat) (json : Option Value)

def isQueryRejection (statusCode : Nat) : Bool := statusCode ∈ [400, 413, 414, 422]

def lokiCursorPrefix : String := "loki:"

def invalidCursor : LogError := .value "before must be an ISO timestamp or Loki nanosecond cursor"

/-- `_encode_page_cursor`. -/
def encodePageCursor (cursor : String) (skipCount : Nat) : String :=
  if skipCount = 0 then cursor else lokiCursorPrefix ++ cursor ++ ":" ++ toString skipCount

namespace Builtins

variable (c : Builtins)

/-- `value.isdigit()`. -/
def digits (value : String) : Bool := value ≠ "" && value.toList.all c.isdigit

/-- `_parse_cursor_timestamp`. -/
def parseCursorTimestamp (value : String) : Except LogError String :=
  if c.digits (strip value) then .ok (strip value)
  else
    match c.isoUtc (strip value) with
    | some iso => .ok iso
    | none => .error invalidCursor

/-- `_iso_to_loki_ns`. -/
def isoToLokiNs (value : String) : Except LogError String :=
  if c.digits value then .ok value
  else
    match c.isoNs value with
    | some ns => .ok ns
    | none => .error .conversion

/-- `_loki_ns_to_iso`. -/
def lokiNsToIso (value : String) : Except LogError String :=
  match intOfString value with
  | some ns =>
    match c.utcIso (ns.toNat / 1000000000) (ns.toNat % 1000000000 / 1000) with
    | some iso => .ok iso
    | none => .error .conversion
  | none => .error .conversion

/-- `_parse_page_cursor`. -/
def parsePageCursor (value : String) : Except LogError (String × Nat) :=
  let normalized := (strip value).toList
  if lokiCursorPrefix.toList.isPrefixOf normalized then
    let remainder := normalized.drop lokiCursorPrefix.toList.length
    let timestampValue := String.ofList (remainder.takeWhile (· ≠ ':'))
    match remainder.dropWhile (· ≠ ':') with
    | [] => .error invalidCursor
    | _ :: rest =>
      let skipValue := String.ofList rest
      if c.digits timestampValue && c.digits skipValue then
        match intOfString skipValue with
        | some skip => .ok (timestampValue, skip.toNat)
        | none => .error .conversion
      else .error invalidCursor
  else (c.parseCursorTimestamp (strip value)).map fun timestamp => (timestamp, 0)

end Builtins

/-- The bounds of a query have been normalised when it was made. -/
structure StudioLogQuery (c : Builtins) where
  before : Option String := none
  fromTime : Option String := none
  toTime : Option String := none
  limit : Nat := 100
  fromTime_normal : ∀ t ∈ fromTime, ∃ value, c.parseCursorTimestamp value = .ok t
  toTime_normal : ∀ t ∈ toTime, ∃ value, c.parseCursorTimestamp value = .ok t
  one_le_limit : 1 ≤ limit
  limit_le : limit ≤ 200

namespace Builtins

variable (c : Builtins)

/-- `_normalize_before`. -/
def normalizeBefore (value : String) : Except LogError (Option String) :=
  if strip value = "" then .ok none
  else (c.parsePageCursor (strip value)).map fun parsed =>
    some (encodePageCursor parsed.1 parsed.2)

/-- An entry for what a stream has at one time, or nothing if that cannot be read. -/
def normalizeValue (serviceId : String) (config : LokiLogConfig) (labels : Fields String)
    (value : Value) : Except LogError (Option StudioLogEntry) :=
  match value with
  | .list (time :: line :: _) =>
    let cursor := strip (c.text.str time)
    if c.digits cursor then
      (c.lokiNsToIso cursor).map fun timestamp =>
        some {
          serviceId
          taskId := labels.lookup (config.taskIdLabel.getD "")
          correlationId := labels.lookup (config.correlationIdLabel.getD "")
          timestamp
          level := labels.lookup (config.levelLabel.getD "")
          source :=
            if config.sourceLabel.getD "" = "" then "unknown"
            else (labels.lookup (config.sourceLabel.getD "")).getD "unknown"
          message := c.text.str line
          fields := { labels, lokiCursor := cursor } }
    else .ok none
  | _ => .ok none

def normalizeStream (serviceId : String) (config : LokiLogConfig) (stream : Value) :
    Except LogError (List StudioLogEntry) :=
  match stream.get "stream", stream.get "values" with
  | some (.dict labels), some (.list values) =>
    let normalizedLabels := labels.map fun label => (label.1, c.text.str label.2)
    (values.mapM (c.normalizeValue serviceId config normalizedLabels)).map fun entries =>
      entries.reduceOption
  | _, _ => .ok []

/-- Newest first, as the texts of the timestamps compare. -/
def byCursor : StudioLogEntry → StudioLogEntry → Ordering := compareOn (·.fields.lokiCursor)

/-- Whether it is that text. -/
def isText (text : String) : Option Value → Bool
  | some (.str value) => value = text
  | _ => false

/-- `_normalize_response`. -/
def normalizeResponse (serviceId : String) (config : LokiLogConfig) (payload : Value) :
    Except LogError (List StudioLogEntry) :=
  let failed (what : String) : Except LogError (List StudioLogEntry) :=
    .error (.provider ("Loki query for service '" ++ serviceId ++ "' returned an invalid " ++ what))
  if isText "success" (payload.get "status") then
    let data := (payload.get "data").getD .none
    if isText "streams" (data.get "resultType") then
      match data.get "result" with
      | some (.list result) =>
        (result.mapM (c.normalizeStream serviceId config)).map fun streams =>
          Descending.sort byCursor streams.flatten
      | _ => failed "stream list."
    else failed "result set."
  else failed "payload."

/-- `_skip_boundary_entries`. -/
def skipBoundaryEntries (cursor : String) : Nat → List StudioLogEntry → List StudioLogEntry
  | _, [] => []
  | 0, entries => entries
  | n + 1, entry :: entries =>
    if entry.fields.lokiCursor = cursor then skipBoundaryEntries cursor n entries
    else entry :: skipBoundaryEntries cursor (n + 1) entries

/-- The first `limit` entries and where to go on. -/
def page (limit : Nat) (entries : List StudioLogEntry) : StudioLogListResponse :=
  let items := entries.take limit
  let nextCursor :=
    if limit < entries.length then
      items.getLast?.map fun last =>
        let boundary := last.fields.lokiCursor
        encodePageCursor boundary
          (if (entries.drop limit).any fun entry => entry.fields.lokiCursor = boundary then
            (items.filter fun entry => entry.fields.lokiCursor = boundary).length
          else 0)
    else none
  { count := items.length, items, nextCursor }

/-- What is read from a reply. -/
def payloadOf (serviceId : String) : Reply → Except LogError Value
  | .refused message => .error (.provider message)
  | .failed => .error (.provider ("Loki query failed for service '" ++ serviceId ++ "'."))
  | .answered statusCode json =>
    if statusCode ≠ 200 then
      let message := "Loki query for service '" ++ serviceId ++ "' returned unexpected status " ++
        toString statusCode ++ "."
      if isQueryRejection statusCode then .error (.config message) else .error (.provider message)
    else
      match json with
      | some payload => .ok payload
      | none =>
        .error (.provider ("Loki query for service '" ++ serviceId ++ "' returned invalid JSON."))

/-- A bound of the query, as Loki takes it. -/
def bound : Option String → Except LogError (Option String)
  | none => .ok none
  | some value => (c.isoToLokiNs value).map some

/-- The position of a query. -/
def position : Option String → Except LogError (Option String × Nat)
  | none => .ok (none, 0)
  | some before => (c.parsePageCursor before).map fun parsed => (some parsed.1, parsed.2)

/-- `query_logs`. -/
def queryLogs (serviceId : String) (config : LokiLogConfig) (buildQuery : Except LogError String)
    (get : Request → Reply) (query : StudioLogQuery c) : Except LogError StudioLogListResponse := do
  let (beforeCursor, skip) ← c.position query.before
  let requestQuery ← buildQuery
  let start ← c.bound query.fromTime
  let stop ← c.bound query.toTime
  let before ← c.bound beforeCursor
  let payload ← payloadOf serviceId (get
    { query := requestQuery, limit := query.limit + skip + 1, start, stop := before.or stop })
  let entries ← c.normalizeResponse serviceId config payload
  let entries := match beforeCursor with
    | some cursor => skipBoundaryEntries cursor skip entries
    | none => entries
  return page query.limit entries

/-- The pages that a client reads when it follows `next_cursor`, if it comes to an end. -/
def follow (serviceId : String) (config : LokiLogConfig) (buildQuery : Except LogError String)
    (get : Request → Reply) : Nat → StudioLogQuery c → Option (List (List StudioLogEntry))
  | 0, _ => none
  | fuel + 1, query =>
    match c.queryLogs serviceId config buildQuery get query with
    | .error _ => none
    | .ok response =>
      match response.nextCursor with
      | none => some [response.items]
      | some cursor =>
        match c.normalizeBefore cursor with
        | .error _ => none
        | .ok before =>
          (follow serviceId config buildQuery get fuel { query with before }).map
            (response.items :: ·)

end Builtins

end Relayna.Studio.Logs
