import Mathlib.Data.Prod.Lex
import Mathlib.Data.String.Basic
import Relayna.Contracts.Transport
import Relayna.Foundation.Base64
import Relayna.Foundation.Doubles
import Relayna.Studio.Logs

/-!
# What Tempo and Prometheus answer

`_normalize_response` of `TempoTraceProvider` and of `PrometheusMetricsProvider`, and
`_normalize_pod_response`, over any JSON value. Both check the shape of an answer where it matters
to them and convert the rest with `int`, `float` and `datetime.fromtimestamp`, whose exceptions are
part of the result: one that is not the provider's own has escaped.

`isoformat` writes a time, given in microseconds since the epoch, with a `Z` behind it.
-/
namespace Relayna.Studio.ProviderAnswers

open Python Contracts Doubles

structure Builtins where
  text : Text
  lower : String → String
  isoformat : Int → String
  platform : Platform

inductive Failure where
  | provider (message : String)
  | escaped (e : PyError)
  deriving DecidableEq, Repr

/-- `_string`. -/
def string (x : Text) : Option Value → Option String
  | none | some .none => none
  | some v => if strip (x.str v) = "" then none else some (strip (x.str v))

/-- `a or b`, of two values that may be missing. -/
def orElse (a b : Option Value) : Option Value := (a.filter Value.truthy).or b

def labelTexts (x : Text) (labels : Fields Value) : Fields String :=
  labels.map fun label => (label.1, x.str label.2)

variable (c : Builtins)

namespace Tempo

structure StudioTraceSpan where
  traceId : String
  spanId : String
  parentSpanId : Option String
  name : String
  kind : Option String
  service : Option String
  source : Option String
  startTime : Option String
  endTime : Option String
  durationMs : Option ℚ
  attributes : Fields Value
  backendUrl : String

def attributeKeys : List String :=
  ["stringValue", "intValue", "doubleValue", "boolValue", "arrayValue", "kvlistValue"]

/-- `_attribute_value`. -/
def attributeValue : Value → Value
  | .dict d => (attributeKeys.findSome? (d.lookup ·)).getD (.dict d)
  | v => v

def addAttribute (parsed : Fields Value) : Value → Fields Value
  | .dict item =>
    match string c.text (item.lookup "key") with
    | some key => parsed.set key (attributeValue ((item.lookup "value").getD .none))
    | none => parsed
  | _ => parsed

/-- `_attributes`. -/
def attributes : Value → Fields Value
  | .dict items => items
  | .list items => items.foldl (addAttribute c) []
  | _ => []

/-- `_int_or_none`. -/
def intOrNone (value : Option Value) : Except Failure (Option Int) :=
  match (value.getD .none).toInt with
  | .ok i => .ok (some i)
  | .error .overflowError => .error (.escaped .overflowError)
  | .error _ => .ok none

/-- `_ns_to_iso`. -/
def nsToIso : Option Int → Except Failure (Option String)
  | none => .ok none
  | some ns =>
    ((trueDiv ns 1000000000 >>= fun t => fromtimestamp c.platform (.finite t)).mapError
      Failure.escaped).map fun us => some (c.isoformat us)

def durationMs : Option Int → Option Int → Except Failure (Option ℚ)
  | some startNs, some endNs =>
    if startNs ≤ endNs then ((trueDiv (endNs - startNs) 1000000).mapError Failure.escaped).map some
    else .ok none
  | _, _ => .ok none

def isHexDigit (ch : Char) : Bool := ch ∈ "0123456789abcdef".toList

def hexOf (bytes : Bytes) : String :=
  String.ofList (bytes.flatMap fun b =>
    [Nat.digitChar (b.toNat / 16), Nat.digitChar (b.toNat % 16)])

/-- `base64.b64decode(raw, validate=True)`. -/
def b64decodeStrict (raw : String) : Option Bytes :=
  let body := raw.toList.rdropWhile (· == '=')
  let pads := raw.toList.length - body.length
  if body.all (fun ch => (b64Index ch).isSome) ∧ pads ≤ 2 ∧ raw.toList.length % 4 = 0 then
    b64decode raw
  else none

/-- `_tempo_id_to_hex`. -/
def tempoIdToHex (value : Option Value) (byteLength : Nat) : String :=
  match string c.text value with
  | none => ""
  | some raw =>
    let lower := c.lower raw
    if lower.length = byteLength * 2 ∧ lower.toList.all isHexDigit then lower
    else
      match b64decodeStrict raw with
      | some decoded => if decoded.length ≠ byteLength then raw else hexOf decoded
      | none => raw

def startOf (raw : Fields Value) : Option Value :=
  orElse (raw.lookup "startTimeUnixNano") (raw.lookup "start_time_unix_nano")

def endOf (raw : Fields Value) : Option Value :=
  orElse (raw.lookup "endTimeUnixNano") (raw.lookup "end_time_unix_nano")

/-- `_normalize_span`. -/
def normalizeSpan (service : Option String) (backendUrl : String) (raw : Fields Value) :
    Except Failure StudioTraceSpan := do
  let attributes := attributes c ((raw.lookup "attributes").getD (.list []))
  let startNs ← intOrNone (startOf raw)
  let endNs ← intOrNone (endOf raw)
  let durationMs ← durationMs startNs endNs
  let startTime ← nsToIso c startNs
  let endTime ← nsToIso c endNs
  let parent := tempoIdToHex c (orElse (raw.lookup "parentSpanId") (raw.lookup "parent_span_id")) 8
  pure {
    traceId := tempoIdToHex c (orElse (raw.lookup "traceId") (raw.lookup "trace_id")) 16
    spanId := tempoIdToHex c (orElse (raw.lookup "spanId") (raw.lookup "span_id")) 8
    parentSpanId := if parent = "" then none else some parent
    name := (string c.text (raw.lookup "name")).getD "unnamed span"
    kind := string c.text (raw.lookup "kind")
    service
    source := string c.text (orElse (orElse (attributes.lookup "service.name")
      (attributes.lookup "messaging.system")) (service.map .str))
    startTime
    endTime
    durationMs
    attributes
    backendUrl }

/-- The spans of a scope that are looked at. -/
def spansOfScope : Value → List (Fields Value)
  | .dict scope =>
    match scope.lookup "spans" with
    | some (.list raws) => raws.filterMap fun
      | .dict raw => some raw
      | _ => none
    | _ => []
  | _ => []

def spansOfBatch (batch : Fields Value) : List (Fields Value) :=
  match orElse (orElse (batch.lookup "scopeSpans") (batch.lookup "instrumentationLibrarySpans"))
      (batch.lookup "scope_spans") with
  | some (.list scopes) => scopes.flatMap spansOfScope
  | _ => []

def serviceOfBatch (batch : Fields Value) : Option String :=
  let resource := match batch.lookup "resource" with
    | some (.dict resource) => attributes c ((resource.lookup "attributes").getD (.list []))
    | _ => []
  string c.text (orElse (resource.lookup "service.name") (resource.lookup "service"))

def normalizeBatch (backendUrl : String) : Value → Except Failure (List StudioTraceSpan)
  | .dict batch => (spansOfBatch batch).mapM (normalizeSpan c (serviceOfBatch c batch) backendUrl)
  | _ => .ok []

/-- What is under `trace`, if that is an object. -/
def tracePayload (payload : Fields Value) : Fields Value :=
  match payload.lookup "trace" with
  | some (.dict trace) => trace
  | _ => payload

def batchesOf (payload : Fields Value) : Value :=
  (orElse (orElse (orElse (payload.lookup "batches") (payload.lookup "resourceSpans"))
    (payload.lookup "resource_spans")) (some (.list []))).getD (.list [])

/-- `_normalize_response` of `TempoTraceProvider`. -/
def normalizeResponse (backendUrl : String) :
    Value → Except Failure (List StudioTraceSpan)
  | .dict payload =>
    match batchesOf (tracePayload payload) with
    | .list batches => do
      let spans ← batches.mapM (normalizeBatch c backendUrl)
      pure (spans.flatten.mergeSort fun a b => a.startTime.getD "" ≤ b.startTime.getD "")
    | _ => .error (.provider "Tempo query returned an invalid span batch list.")
  | _ => .error (.provider "Tempo query returned an invalid payload.")

end Tempo

namespace Prometheus

structure StudioMetricPoint where
  timestamp : String
  value : Double

structure StudioMetricSeries where
  metric : String
  unit : String
  labels : Fields String
  points : List StudioMetricPoint

structure StudioServicePod where
  name : String
  podNamespace : String
  phase : Option String
  labels : Fields String

structure StudioServicePodListResponse where
  serviceId : String
  count : Nat
  pods : List StudioServicePod

structure PrometheusMetricsConfig where
  configNamespace : String
  namespaceLabel : String
  podLabel : String

def metricUnit (group : String) : String :=
  if group ∈ ["cpu_usage", "cpu_requests", "cpu_limits"] then "cores"
  else if group ∈ ["memory_usage", "memory_requests", "memory_limits"] then "bytes"
  else if group ∈ ["network_receive", "network_transmit"] then "bytes_per_second"
  else if group ∈ ["restarts", "oom_killed", "active_tasks"] then "count"
  else if group ∈ ["tasks_started_rate", "tasks_failed_rate", "tasks_retried_rate",
      "tasks_dlq_rate", "queue_publish_rate", "status_events_rate", "observation_events_rate"] then
    "per_second"
  else if group = "task_duration_p95" then "seconds"
  else if group = "worker_heartbeat" then "unix_seconds"
  else "state"

/-- `except (TypeError, ValueError)`. -/
def refuse (e : PyError) : Failure :=
  if e = .typeError ∨ e = .valueError then
    .provider "Prometheus query returned an invalid sample value."
  else .escaped e

def normalizePoint : Value → Except Failure StudioMetricPoint
  | .list [rawTimestamp, rawValue] => do
    let timestamp ← (toFloat rawTimestamp >>= fromtimestamp c.platform).mapError refuse
    let value ← (toFloat rawValue).mapError refuse
    pure ⟨c.isoformat timestamp, value⟩
  | _ => .error (.provider "Prometheus query returned an invalid sample.")

/-- `_normalize_series`. -/
def normalizeSeries (group : String) (item : Fields Value) : Except Failure StudioMetricSeries :=
  match item.lookup "metric", item.lookup "values" with
  | some (.dict metric), some (.list values) => do
    let points ← values.mapM (normalizePoint c)
    pure ⟨group, metricUnit group, labelTexts c.text metric, points⟩
  | _, _ => .error (.provider "Prometheus query returned an invalid metric series.")

/-- The result of an answer; `payload.get` is called whatever the payload is. -/
def resultOf (what resultType : String) : Value → Except Failure (List Value)
  | .dict payload =>
    if Logs.Builtins.isText "success" (payload.lookup "status") then
      match payload.lookup "data" with
      | some (.dict data) =>
        if Logs.Builtins.isText resultType (data.lookup "resultType") then
          match data.lookup "result" with
          | some (.list result) => .ok result
          | _ => .error (.provider ("Prometheus " ++ what ++ " returned an invalid result set."))
        else .error (.provider ("Prometheus " ++ what ++ " returned an invalid result type."))
      | _ => .error (.provider ("Prometheus " ++ what ++ " returned an invalid payload."))
    else .error (.provider ("Prometheus " ++ what ++ " returned an unsuccessful response."))
  | _ => .error (.escaped .attributeError)

def objects (items : List Value) : List (Fields Value) :=
  items.filterMap fun
    | .dict item => some item
    | _ => none

/-- `_normalize_response` of `PrometheusMetricsProvider`. -/
def normalizeResponse (group : String) (payload : Value) :
    Except Failure (List StudioMetricSeries) := do
  let result ← resultOf "query" "matrix" payload
  (objects result).mapM (normalizeSeries c group)

def podOf (config : PrometheusMetricsConfig) (item : Fields Value) : Option StudioServicePod :=
  match item.lookup "metric" with
  | some (.dict metric) =>
    let labels := labelTexts c.text metric
    ((labels.lookup config.podLabel).filter (· ≠ "")).map fun name =>
      ⟨name, (labels.lookup config.namespaceLabel).getD config.configNamespace,
        labels.lookup "phase", labels⟩
  | _ => none

/-- `pods_by_key[key] = pod`. -/
def addPod (pods : List StudioServicePod) (pod : StudioServicePod) : List StudioServicePod :=
  if pods.any fun other => other.podNamespace = pod.podNamespace ∧ other.name = pod.name then
    pods.map fun other =>
      if other.podNamespace = pod.podNamespace ∧ other.name = pod.name then pod else other
  else pods ++ [pod]

/-- `_normalize_pod_response`. -/
def normalizePodResponse (serviceId : String) (config : PrometheusMetricsConfig) (payload : Value) :
    Except Failure StudioServicePodListResponse := do
  let result ← resultOf "pod query" "vector" payload
  let pods := ((objects result).filterMap (podOf c config)).foldl addPod []
  pure ⟨serviceId, pods.length, pods.mergeSort fun a b =>
    toLex (a.podNamespace, a.name) ≤ toLex (b.podNamespace, b.name)⟩

end Prometheus

end Relayna.Studio.ProviderAnswers
