import Relayna.Studio.Events
import Relayna.Studio.ProviderAnswers

/-!
# Trace paths

`_build_trace_path_response`: the execution graph of a task, or the history of its status when there
is no graph, with the messages of the dead letter queue, the Studio events and the spans of the
trace attached to its nodes. A message or a span that belongs to no node gets one of its own, and
spans are joined to the spans that they were started by.

The nodes are a list that is changed in place, so a node is referred to by its position. The dump of
a span in its evidence is kept as the span.
-/
namespace Relayna.Studio.TracePaths

open Python Contracts Doubles ProviderAnswers ProviderAnswers.Tempo

structure Builtins where
  text : Text
  lower : String → String
  fromisoformat : String → Option Events.DateTime

inductive TraceError where
  | overflowError
  | indexError
  deriving DecidableEq, Repr

inductive Source where
  | graphNode
  | graphEdge
  | statusHistory
  | studioEvent
  | span
  | dlq
  | latestStatus
  deriving DecidableEq, Repr

inductive Payload where
  | object (fields : Fields Value)
  | dump (span : StudioTraceSpan)

structure StudioTracePathEvidence where
  source : Source
  sourceId : String
  label : String
  timestamp : Option String := none
  payload : Payload := .object []

structure StudioTracePathNode where
  id : String
  kind : String
  label : String
  taskId : Option String := none
  state : Option String := none
  queueName : Option String := none
  stage : Option String := none
  attempt : Option Int := none
  traceId : Option String := none
  spanId : Option String := none
  parentSpanId : Option String := none
  startedAt : Option String := none
  endedAt : Option String := none
  durationMs : Option ℚ := none
  evidence : List StudioTracePathEvidence := []

structure StudioTracePathEdge where
  id : String
  source : String
  target : String
  kind : String
  timestamp : Option String := none
  state : Option String := none
  evidence : List StudioTracePathEvidence := []

/-- The nodes and edges that the builders change. -/
structure Path where
  nodes : List StudioTracePathNode
  edges : List StudioTracePathEdge

/-- A node and its position among the nodes. -/
abbrev Ref := StudioTracePathNode × Nat

/-! ## Values -/

/-- `_mapping_or_empty` and `_json_object`. -/
def mappingOrEmpty : Option Value → Fields Value
  | some (.dict d) => d
  | _ => []

/-- `_list_of_mappings`. -/
def listOfMappings : Option Value → List (Fields Value)
  | some (.list items) => items.filterMap fun
    | .dict item => some item
    | _ => none
  | _ => []

/-- `_int_or_none`. -/
def intOrNone (value : Option Value) : Except TraceError (Option Int) :=
  (Tempo.intOrNone value).mapError fun _ => .overflowError

/-- `_float_or_none`. -/
def floatOrNone (value : Option Value) : Except TraceError (Option Double) :=
  match toFloat (value.getD .none) with
  | .ok x => .ok (some x)
  | .error .overflowError => .error .overflowError
  | .error _ => .ok none

/-- `_int_counts`. -/
def intCounts : Option Value → Except TraceError (Fields Int)
  | some (.dict d) => do
    let counts ← d.mapM fun entry => (intOrNone (some entry.2)).map (entry.1, ·)
    return counts.filterMap fun entry => entry.2.map (entry.1, ·)
  | _ => .ok []

/-- `a or b` of texts. -/
def textOr (a b : Option String) : Option String := (a.filter (· ≠ "")).or b

/-- `a or b` of numbers. -/
def numberOr (a b : Option ℚ) : Option ℚ := (a.filter (· ≠ 0)).or b

def contains (word text : String) : Bool := word.toList <:+: text.toList

/-- `sorted` of texts. -/
def sortedTexts (texts : List String) : List String := texts.insertionSort (· ≤ ·)

namespace Builtins

variable (c : Builtins)

/-- `_string` of a text. -/
def ofText (text : Option String) : Option String := string c.text (text.map Value.str)

/-- `_first_string`. -/
def firstString (values : List (Option Value)) : Option String := values.findSome? (string c.text)

/-- `_state_from_status`. -/
def stateFromStatus (status : String) : String :=
  let normalized := c.lower (strip status)
  if normalized ∈ ["processing", "running", "started", "planning"] then "running"
  else if normalized ∈ ["retrying", "manual_retrying"] then "retrying"
  else if normalized ∈ ["completed", "complete", "succeeded", "success"] then "succeeded"
  else if normalized ∈ ["failed", "failure", "error"] then "failed"
  else if normalized ∈ ["dead_lettered", "dlq", "dead-lettered"] then "dead_lettered"
  else if normalized ∈ ["queued", "pending", "waiting"] then "queued"
  else "unknown"

/-! ## Times -/

/-- `_timestamp_sort_key`. -/
def timestampSortKey (value : Option String) : String := (c.ofText value).getD ""

/-- `_earliest_timestamp`. -/
def earliestTimestamp (values : List (Option String)) : Option String :=
  (sortedTexts (values.filterMap c.ofText)).head?

/-- `_latest_timestamp`. -/
def latestTimestamp (values : List (Option String)) : Option String :=
  (sortedTexts (values.filterMap c.ofText)).getLast?

/-- `_parse_iso_timestamp`. -/
def parseIsoTimestamp (value : Option String) : Except TraceError (Option Int) :=
  match c.ofText value with
  | none => .ok none
  | some normalized =>
    let iso :=
      if normalized.toList.getLast? = some 'Z' then
        String.ofList normalized.toList.dropLast ++ "+00:00"
      else normalized
    match c.fromisoformat iso with
    | none => .ok none
    | some ⟨wall, none⟩ => .ok (some wall)
    | some ⟨wall, some offset⟩ =>
      if InYears (wall - offset) then .ok (some (wall - offset)) else .error .overflowError

/-- `_duration_ms`: the seconds are a float, and so is their product with 1000. -/
def durationMs (startedAt endedAt : Option String) : Except TraceError (Option ℚ) := do
  let start ← c.parseIsoTimestamp startedAt
  let stop ← c.parseIsoTimestamp endedAt
  return start.bind fun a => stop.bind fun b =>
    if b < a then none else some (nearest (nearest ((b - a) / 1000000) * 1000))

/-! ## The execution graph -/

/-- A node without an id is named by its number. -/
def graphNodeId (item : Fields Value) (number : Nat) : String :=
  (string c.text (item.lookup "id")).getD ("node:" ++ toString number)

def graphNodeEvidence (item : Fields Value) (number : Nat) : StudioTracePathEvidence where
  source := .graphNode
  sourceId := c.graphNodeId item number
  label := (string c.text (item.lookup "kind")).getD "graph node"
  timestamp := string c.text (item.lookup "timestamp")
  payload := .object item

def graphNode (taskId : String) (item : Fields Value) (number : Nat) :
    Except TraceError StudioTracePathNode := do
  let annotations := mappingOrEmpty (item.lookup "annotations")
  let nodeId := c.graphNodeId item number
  let timestamp := string c.text (item.lookup "timestamp")
  let updatedAt := string c.text (item.lookup "updated_at")
  let attempt ← intOrNone (annotations.lookup "retry_attempt")
  return {
    id := nodeId
    kind := (string c.text (item.lookup "kind")).getD "node"
    label := (string c.text (item.lookup "label")).getD nodeId
    taskId := some ((string c.text (item.lookup "task_id")).getD taskId)
    state := string c.text (item.lookup "state")
    queueName := c.firstString [annotations.lookup "queue_name",
      annotations.lookup "source_queue_name", annotations.lookup "retry_queue_name"]
    stage := string c.text (annotations.lookup "stage")
    attempt
    traceId := string c.text (annotations.lookup "trace_id")
    spanId := string c.text (annotations.lookup "span_id")
    parentSpanId := string c.text (annotations.lookup "parent_span_id")
    startedAt := timestamp
    endedAt := if updatedAt ≠ timestamp then updatedAt else none
    evidence := [c.graphNodeEvidence item number] }

/-- `_trace_path_nodes_from_graph`. -/
def tracePathNodesFromGraph (graph : Fields Value) (taskId : String) :
    Except TraceError (List StudioTracePathNode) :=
  ((listOfMappings (graph.lookup "nodes")).zipIdx 1).mapM fun entry =>
    c.graphNode taskId entry.1 entry.2

def graphEdge (item : Fields Value) (index : Nat) : Option StudioTracePathEdge := do
  let source ← string c.text (item.lookup "source")
  let target ← string c.text (item.lookup "target")
  let edgeId := source ++ "->" ++ target ++ ":" ++ toString index
  let timestamp := string c.text (item.lookup "timestamp")
  return {
    id := edgeId
    source
    target
    kind := (string c.text (item.lookup "kind")).getD "related"
    timestamp
    state := string c.text (item.lookup "state")
    evidence := [{
      source := .graphEdge
      sourceId := edgeId
      label := (string c.text (item.lookup "kind")).getD "graph edge"
      timestamp
      payload := .object item }] }

/-- `_trace_path_edges_from_graph`. -/
def tracePathEdgesFromGraph (graph : Fields Value) : List StudioTracePathEdge :=
  ((listOfMappings (graph.lookup "edges")).zipIdx 1).filterMap fun entry =>
    c.graphEdge entry.1 entry.2

/-! ## The history of the status -/

def rootEvidence (taskId : String) (latestStatus : Option Value) : StudioTracePathEvidence where
  source := .latestStatus
  sourceId := taskId
  label := "task detail"
  payload := .object (mappingOrEmpty latestStatus)

def rootNode (taskId : String) (latestStatus : Option Value) : StudioTracePathNode where
  id := "task:" ++ taskId
  kind := "task"
  label := taskId
  taskId := some taskId
  evidence := [rootEvidence taskId latestStatus]

def statusText (item : Fields Value) : String :=
  (string c.text (item.lookup "status")).getD "status"

def statusNodeId (taskId : String) (index : Nat) : String :=
  "status:" ++ taskId ++ ":" ++ toString index

def statusEvidence (taskId : String) (item : Fields Value) (index : Nat) :
    StudioTracePathEvidence where
  source := .statusHistory
  sourceId := (string c.text (item.lookup "event_id")).getD (statusNodeId taskId index)
  label := "status." ++ c.statusText item
  timestamp := string c.text (item.lookup "timestamp")
  payload := .object item

def statusNode (taskId : String) (item : Fields Value) (index : Nat) : StudioTracePathNode where
  id := statusNodeId taskId index
  kind := "status_event"
  label := c.statusText item
  taskId := some taskId
  state := some (c.stateFromStatus (c.statusText item))
  traceId := string c.text (item.lookup "trace_id")
  spanId := string c.text (item.lookup "span_id")
  startedAt := string c.text (item.lookup "timestamp")
  evidence := [c.statusEvidence taskId item index]

/-- The node that the next status follows is carried along. -/
def appendStatus (taskId : String) (sofar : Path × String) (entry : Fields Value × Nat) :
    Path × String :=
  let node := c.statusNode taskId entry.1 entry.2
  let edge : StudioTracePathEdge := {
    id := sofar.2 ++ "->" ++ node.id ++ ":status"
    source := sofar.2
    target := node.id
    kind := "published_status"
    timestamp := node.startedAt }
  (⟨sofar.1.nodes ++ [node], sofar.1.edges ++ [edge]⟩, node.id)

/-- `_append_history_status_nodes`. -/
def appendHistoryStatusNodes (path : Path) (taskId : String) (history : Fields Value) : Path :=
  (((listOfMappings (history.lookup "events")).zipIdx 1).foldl (c.appendStatus taskId)
    (path, "task:" ++ taskId)).1

/-! ## Nodes that fit -/

/-- `_first_node`; what is `None` is not asked for. -/
def firstNode (nodes : List Ref) (kind queueName stage : Option String := none) : Option Ref :=
  nodes.find? fun node =>
    kind.all (node.1.kind = ·) &&
    queueName.all (fun name => node.1.queueName = some name) &&
    stage.all (fun name => node.1.stage = some name)

/-- The nodes of the task, or all nodes when it has none. -/
def eventCandidates (nodes : List StudioTracePathNode) (taskId : String) : List Ref :=
  let own := nodes.zipIdx.filter fun node => node.1.taskId = some taskId
  if own = [] then nodes.zipIdx else own

/-- `_best_node_for_event`; with no node at all there is no `candidates[0]`. -/
def bestNodeForEvent (nodes : List StudioTracePathNode) (taskId eventType : String)
    (payload : Fields Value) : Except TraceError Ref :=
  let queueName := string c.text (payload.lookup "queue_name")
  let stage := string c.text (payload.lookup "stage")
  let lowered := c.lower eventType
  let candidates := eventCandidates nodes taskId
  let dlq :=
    if contains "deadletter" lowered ∨ contains "dead_letter" lowered ∨ contains "dlq" lowered then
      firstNode candidates (some "dlq_record") queueName
    else none
  let status :=
    if contains "status." lowered then firstNode candidates (some "status_event") else none
  let stageNode := stage.bind fun name => firstNode candidates none none (some name)
  let queueNode := queueName.bind fun name => firstNode candidates none (some name)
  match (dlq.or (status.or (stageNode.or queueNode))).or candidates.head? with
  | some node => .ok node
  | none => .error .indexError

/-- `_best_node_for_dlq`. -/
def bestNodeForDlq (nodes : List StudioTracePathNode) (item : Fields Value) : Option Ref :=
  let taskId := string c.text (item.lookup "task_id")
  let queueName := string c.text (item.lookup "queue_name")
  let candidates := nodes.zipIdx.filter fun node =>
    node.1.kind = "dlq_record" && (taskId.isNone || node.1.taskId = taskId)
  (queueName.bind fun name => firstNode candidates none (some name)).or candidates.head?

/-- `_span_task_id`. -/
def spanTaskId (span : StudioTraceSpan) : Option String :=
  c.firstString [span.attributes.lookup "relayna.task_id", span.attributes.lookup "task_id"]

/-- `_span_queue_name`. -/
def spanQueueName (span : StudioTraceSpan) : Option String :=
  c.firstString [span.attributes.lookup "messaging.destination.name",
    span.attributes.lookup "messaging.source.name", span.attributes.lookup "queue_name"]

/-- `_span_stage`. -/
def spanStage (span : StudioTraceSpan) : Option String :=
  c.firstString [span.attributes.lookup "relayna.stage", span.attributes.lookup "stage"]

/-- `_best_node_for_span`. -/
def bestNodeForSpan (nodes : List StudioTracePathNode) (span : StudioTraceSpan)
    (fallbackTaskId : String) : Option Ref :=
  let taskId := (c.spanTaskId span).getD fallbackTaskId
  let queueName := c.spanQueueName span
  let stage := c.spanStage span
  let candidates := nodes.zipIdx.filter fun node => node.1.taskId = some taskId
  let consumer : Bool :=
    contains "consumer" (c.lower span.name) || span.kind = some "SPAN_KIND_CONSUMER"
  let producer : Bool :=
    contains "publish" (c.lower span.name) || span.kind = some "SPAN_KIND_PRODUCER"
  let stageNode := stage.bind fun name =>
    (if consumer then firstNode candidates (some "stage_attempt") none (some name) else none).or
      (firstNode candidates none none (some name))
  let queueNode := queueName.bind fun name => firstNode candidates none (some name)
  let attempt :=
    if consumer then
      (firstNode candidates (some "task_attempt")).or (firstNode candidates (some "stage_attempt"))
    else none
  let message := if producer then firstNode candidates (some "workflow_message") else none
  stageNode.or (queueNode.or (attempt.or message))

/-- Nodes in the order of their times, as texts, and of their ids. -/
def nodeKey (node : StudioTracePathNode) : String ×ₗ String :=
  toLex (c.timestampSortKey node.startedAt, node.id)

def sortedNodes (nodes : List StudioTracePathNode) : List StudioTracePathNode :=
  nodes.insertionSort fun a b => c.nodeKey a ≤ c.nodeKey b

/-- `_latest_non_dlq_node`. -/
def latestNonDlqNode (nodes : List StudioTracePathNode) (taskId : String) (before : Option String) :
    Option StudioTracePathNode :=
  let own := nodes.filter fun node => node.taskId = some taskId && node.kind ≠ "dlq_record"
  let earlier := own.filter fun node =>
    c.timestampSortKey node.startedAt ≤ c.timestampSortKey before
  (c.sortedNodes (if earlier = [] then own else earlier)).getLast?

/-! ## What is attached -/

def dlqEvidence (taskId : String) (item : Fields Value) (index : Nat) :
    StudioTracePathEvidence where
  source := .dlq
  sourceId := (string c.text (item.lookup "dlq_id")).getD
    ("dlq:" ++ taskId ++ ":" ++ toString index)
  label := ((string c.text (item.lookup "reason")).or
    (string c.text (item.lookup "queue_name"))).getD "DLQ"
  timestamp := string c.text (item.lookup "dead_lettered_at")
  payload := .object item

def dlqNodeId (taskId : String) (index : Nat) : String :=
  "dlq:" ++ taskId ++ ":trace-path:" ++ toString index

def giveDlq (evidence : StudioTracePathEvidence) (node : StudioTracePathNode) :
    StudioTracePathNode :=
  { node with
    evidence := node.evidence ++ [evidence]
    state := textOr node.state (some "dead_lettered") }

/-- A message that no node fits gets a node of its own, which the latest node leads to. -/
def attachDlqMessage (taskId : String) (path : Path) (entry : Fields Value × Nat) :
    Except TraceError Path :=
  let item := entry.1
  let evidence := c.dlqEvidence taskId item entry.2
  match c.bestNodeForDlq path.nodes item with
  | some target => .ok { path with nodes := path.nodes.modify target.2 (giveDlq evidence) }
  | none => do
    let attempt ← intOrNone (item.lookup "retry_attempt")
    let node : StudioTracePathNode := {
      id := dlqNodeId taskId entry.2
      kind := "dlq_record"
      label := evidence.label
      taskId := some ((string c.text (item.lookup "task_id")).getD taskId)
      state := some "dead_lettered"
      queueName := string c.text (item.lookup "queue_name")
      attempt
      startedAt := evidence.timestamp
      evidence := [evidence] }
    let nodes := path.nodes ++ [node]
    let edges := (c.latestNonDlqNode nodes taskId evidence.timestamp).map fun source =>
      ({ id := source.id ++ "->" ++ node.id ++ ":dlq"
         source := source.id
         target := node.id
         kind := "dead_lettered_to"
         timestamp := evidence.timestamp
         state := some "blocked" } : StudioTracePathEdge)
    return ⟨nodes, path.edges ++ edges.toList⟩

/-- `_attach_dlq_messages`. -/
def attachDlqMessages (path : Path) (messages : List (Fields Value)) (taskId : String) :
    Except TraceError Path :=
  (messages.zipIdx 1).foldlM (c.attachDlqMessage taskId) path

def eventTypeOf (item : Fields Value) : String :=
  (string c.text (item.lookup "event_type")).getD "event"

def eventEvidence (item : Fields Value) : StudioTracePathEvidence where
  source := .studioEvent
  sourceId := ((string c.text (item.lookup "dedupe_key")).or
    (string c.text (item.lookup "event_id"))).getD (c.eventTypeOf item)
  label := c.eventTypeOf item
  timestamp := (string c.text (item.lookup "timestamp")).or
    (string c.text (item.lookup "ingested_at"))
  payload := .object item

def giveEvent (item : Fields Value) (node : StudioTracePathNode) : StudioTracePathNode :=
  let payload := mappingOrEmpty (item.lookup "payload")
  { node with
    evidence := node.evidence ++ [c.eventEvidence item]
    traceId := node.traceId.or (string c.text (payload.lookup "trace_id"))
    spanId := node.spanId.or (string c.text (payload.lookup "span_id")) }

def attachEvent (fallbackTaskId : String) (nodes : List StudioTracePathNode) (item : Fields Value) :
    Except TraceError (List StudioTracePathNode) := do
  let target ← c.bestNodeForEvent nodes
    ((string c.text (item.lookup "task_id")).getD fallbackTaskId) (c.eventTypeOf item)
    (mappingOrEmpty (item.lookup "payload"))
  return nodes.modify target.2 (c.giveEvent item)

/-- `_attach_events`. -/
def attachEvents (nodes : List StudioTracePathNode) (items : List (Fields Value))
    (fallbackTaskId : String) : Except TraceError (List StudioTracePathNode) :=
  items.foldlM (c.attachEvent fallbackTaskId) nodes

def spanEvidence (span : StudioTraceSpan) : StudioTracePathEvidence where
  source := .span
  sourceId := span.spanId
  label := span.name
  timestamp := span.startTime
  payload := .dump span

def spanNodeId (span : StudioTraceSpan) : String := "span:" ++ span.spanId

def spanNode (span : StudioTraceSpan) (fallbackTaskId : String) : StudioTracePathNode where
  id := spanNodeId span
  kind := "span"
  label := span.name
  taskId := some ((c.spanTaskId span).getD fallbackTaskId)
  queueName := c.spanQueueName span
  stage := c.spanStage span
  traceId := some span.traceId
  spanId := some span.spanId
  parentSpanId := span.parentSpanId
  startedAt := span.startTime
  endedAt := span.endTime
  durationMs := span.durationMs

def giveSpan (span : StudioTraceSpan) (node : StudioTracePathNode) :
    Except TraceError StudioTracePathNode := do
  let startedAt := c.earliestTimestamp [node.startedAt, span.startTime]
  let endedAt := c.latestTimestamp [node.endedAt, span.endTime]
  let duration ← c.durationMs startedAt endedAt
  return { node with
    evidence := node.evidence ++ [spanEvidence span]
    traceId := textOr node.traceId (some span.traceId)
    spanId := textOr node.spanId (some span.spanId)
    parentSpanId := textOr node.parentSpanId span.parentSpanId
    startedAt
    endedAt
    durationMs := numberOr duration (numberOr node.durationMs span.durationMs) }

/-- The nodes, and the id of the node that each span has been given to. -/
structure Placed where
  nodes : List StudioTracePathNode
  spanNodeIds : Fields String

def placeSpan (taskId : String) (placed : Placed) (span : StudioTraceSpan) :
    Except TraceError Placed :=
  match c.bestNodeForSpan placed.nodes span taskId with
  | some target => do
    let node ← c.giveSpan span target.1
    return ⟨placed.nodes.set target.2 node, placed.spanNodeIds.set span.spanId node.id⟩
  | none => do
    let node ← c.giveSpan span (c.spanNode span taskId)
    return ⟨placed.nodes ++ [node], placed.spanNodeIds.set span.spanId node.id⟩

/-- `parent_span_id` unless it is `None` or empty. -/
def parentOf (span : StudioTraceSpan) : Option String := span.parentSpanId.filter (· ≠ "")

/-- The ends of the edge from the node of the span's parent to that of the span. -/
def childEdge (spanNodeIds : Fields String) (span : StudioTraceSpan) :
    Option (String × String) := do
  let parent ← parentOf span
  let source ← spanNodeIds.lookup parent
  let target ← spanNodeIds.lookup span.spanId
  if source = target then none else some (source, target)

def edgeKey (edge : StudioTracePathEdge) : String × String × String :=
  (edge.source, edge.target, edge.kind)

/-- The keys that are there already are those of the edges. -/
def joinSpan (spanNodeIds : Fields String) (edges : List StudioTracePathEdge)
    (span : StudioTraceSpan) : List StudioTracePathEdge :=
  match childEdge spanNodeIds span with
  | none => edges
  | some (source, target) =>
    if (edges.map edgeKey).contains (source, target, "span_child") then edges
    else edges ++ [{
      id := source ++ "->" ++ target ++ ":span:" ++ span.spanId
      source
      target
      kind := "span_child"
      timestamp := span.startTime
      state := some "traversed" }]

/-- `_attach_spans`. -/
def attachSpans (path : Path) (spans : List StudioTraceSpan) (taskId : String) :
    Except TraceError Path := do
  let placed ← spans.foldlM (c.placeSpan taskId) ⟨path.nodes, []⟩
  return ⟨placed.nodes, spans.foldl (joinSpan placed.spanNodeIds) path.edges⟩

/-! ## The answer -/

structure StudioTracePathSummary where
  status : Option String
  startedAt : Option String
  endedAt : Option String
  durationMs : Option Double
  graphCompleteness : Option String
  traceIds : List String
  nodeCount : Nat
  edgeCount : Nat
  spanCount : Nat
  eventCount : Nat
  dlqCount : Nat
  liveStateCounts : Fields Int

structure StudioTracePathLogMetadata where
  configured : Bool
  provider : Option String
  sourceLabel : Option String
  taskIdLabel : Option String
  correlationIdLabel : Option String
  taskId : String
  correlationId : Option String
  query : Option String
  fromTime : Option String
  toTime : Option String

structure StudioTraceResponse where
  traceIds : List String
  spans : List StudioTraceSpan

structure StudioTracePathResponse where
  taskId : String
  summary : StudioTracePathSummary
  nodes : List StudioTracePathNode
  edges : List StudioTracePathEdge
  spans : List StudioTraceSpan
  events : List (Fields Value)
  dlqMessages : List (Fields Value)
  logMetadata : StudioTracePathLogMetadata
  warnings : List String

/-- `_latest_status_from_nodes`. -/
def latestStatusFromNodes (nodes : List StudioTracePathNode) : Option String :=
  (c.sortedNodes (nodes.filter (·.kind = "status_event"))).getLast?.map StudioTracePathNode.label

/-- The duration that is stated, unless it is missing or 0. -/
def summaryDuration (stated : Option Double) (startedAt endedAt : Option String) :
    Except TraceError (Option Double) :=
  if stated.all (· = .finite 0) then
    (c.durationMs startedAt endedAt).map fun ms => ms.map Double.finite
  else .ok stated

/-- `_trace_path_summary`. -/
def tracePathSummary (graph : Fields Value) (path : Path) (spans : List StudioTraceSpan)
    (events dlqMessages : List (Fields Value)) (traceIds : List String) :
    Except TraceError StudioTracePathSummary := do
  let nodes := path.nodes
  let summary := mappingOrEmpty (graph.lookup "summary")
  let startedAt := c.firstString [summary.lookup "started_at",
    (c.earliestTimestamp (nodes.map (·.startedAt))).map Value.str,
    (c.earliestTimestamp (spans.map (·.startTime))).map Value.str]
  let endedAt := c.firstString [summary.lookup "ended_at",
    (c.latestTimestamp (nodes.map fun node => textOr node.endedAt node.startedAt)).map Value.str,
    (c.latestTimestamp (spans.map (·.endTime))).map Value.str]
  let stated ← floatOrNone (summary.lookup "duration_ms")
  let durationMs ← c.summaryDuration stated startedAt endedAt
  let liveStateCounts ← intCounts (summary.lookup "live_state_counts")
  return {
    status := (string c.text (summary.lookup "status")).or (c.latestStatusFromNodes nodes)
    startedAt
    endedAt
    durationMs
    graphCompleteness := string c.text (summary.lookup "graph_completeness")
    traceIds
    nodeCount := nodes.length
    edgeCount := path.edges.length
    spanCount := spans.length
    eventCount := events.length
    dlqCount := dlqMessages.length
    liveStateCounts }

/-- `_trace_path_log_metadata`. -/
def tracePathLogMetadata (config : Option Logs.LokiLogConfig) (taskId : String)
    (detail : Fields Value) (summary : StudioTracePathSummary) : StudioTracePathLogMetadata :=
  let taskRef := mappingOrEmpty (detail.lookup "task_ref")
  let correlationId := string c.text (taskRef.lookup "correlation_id")
  { configured := config.isSome
    provider := config.map fun _ => "loki"
    sourceLabel := config.bind (·.sourceLabel)
    taskIdLabel := config.bind (·.taskIdLabel)
    correlationIdLabel := config.bind (·.correlationIdLabel)
    taskId
    correlationId
    query := config.map fun _ =>
      " OR ".intercalate (taskId :: (correlationId.filter (· ≠ taskId)).toList)
    fromTime := summary.startedAt
    toTime := summary.endedAt }

/-- The graph with its nodes, or the task with the history of its status. -/
def baseOf (taskId : String) (detail : Fields Value) : Except TraceError Path := do
  let graph := mappingOrEmpty (detail.lookup "execution_graph")
  let nodes ← c.tracePathNodesFromGraph graph taskId
  let edges := c.tracePathEdgesFromGraph graph
  if nodes = [] then
    return c.appendHistoryStatusNodes ⟨[rootNode taskId (detail.lookup "latest_status")], edges⟩
      taskId (mappingOrEmpty (detail.lookup "history"))
  else return ⟨nodes, edges⟩

/-- `_dlq_messages_from_detail`. -/
def dlqMessagesFromDetail (detail : Fields Value) : List (Fields Value) :=
  listOfMappings ((mappingOrEmpty (detail.lookup "dlq_messages")).lookup "items")

/-- Edges in the order of their times, as texts, and of their ids. -/
def edgeSortKey (edge : StudioTracePathEdge) : String ×ₗ String :=
  toLex (c.timestampSortKey edge.timestamp, edge.id)

def sortedEdges (edges : List StudioTracePathEdge) : List StudioTracePathEdge :=
  edges.insertionSort fun a b => c.edgeSortKey a ≤ c.edgeSortKey b

/-- `_build_trace_path_response`. -/
def buildTracePathResponse (config : Option Logs.LokiLogConfig) (taskId : String)
    (detail : Fields Value) (trace : StudioTraceResponse)
    (eventItems : List (Fields Value)) (warnings : List String) :
    Except TraceError StudioTracePathResponse := do
  let base ← c.baseOf taskId detail
  let dlqMessages := dlqMessagesFromDetail detail
  let lettered ← c.attachDlqMessages base dlqMessages taskId
  let nodes ← c.attachEvents lettered.nodes eventItems taskId
  let path ← c.attachSpans ⟨nodes, lettered.edges⟩ trace.spans taskId
  let sorted : Path := ⟨c.sortedNodes path.nodes, c.sortedEdges path.edges⟩
  let summary ← c.tracePathSummary (mappingOrEmpty (detail.lookup "execution_graph")) sorted
    trace.spans eventItems dlqMessages trace.traceIds
  return {
    taskId
    summary
    nodes := sorted.nodes
    edges := sorted.edges
    spans := trace.spans
    events := eventItems
    dlqMessages
    logMetadata := c.tracePathLogMetadata config taskId detail summary
    warnings := warnings.eraseDups }

end Builtins

end Relayna.Studio.TracePaths
