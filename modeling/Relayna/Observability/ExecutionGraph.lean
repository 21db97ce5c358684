import Mathlib.Data.List.Sort
import Mathlib.Data.String.Basic
import Mathlib.Order.Basic
import Relayna.Contracts.Transport
import Relayna.Foundation.Keyed

/-!
# Execution graphs

`build_execution_graph` draws the histories of a task and of its related tasks as one graph. Each
branch of the loop over the observations makes up the ids of its nodes from the task, fields of the
event and a running number, and `add_node` merges a node into the one that has its id already.

Nodes are shared objects in the source. Here the lists of attempts hold ids, and the nodes are read
where they are used. `itemNodes` lists, for every item of the histories that stands for a node of
its own, the id of the node it was given. The conversions to text, `datetime.fromisoformat` and the
length of an interval in milliseconds are parameters.
-/
namespace Relayna.Observability.Execution

open Python Contracts

/-! ## Graphs -/

inductive NodeKind
  | task | aggregationChild | taskAttempt | resourceSample | workflowMessage | stageAttempt | retry
  | dlqRecord | statusEvent
  deriving DecidableEq, Repr

/-- The kinds that are drawn; `replayed_as` is not one of them. -/
inductive EdgeKind
  | aggregatedInto | receivedBy | stageTransitionedTo | enteredStage | retriedAs | deadLetteredTo
  | publishedStatus | manualRetryTo
  deriving DecidableEq, Repr

def EdgeKind.name : EdgeKind → String
  | .aggregatedInto => "aggregated_into"
  | .receivedBy => "received_by"
  | .stageTransitionedTo => "stage_transitioned_to"
  | .enteredStage => "entered_stage"
  | .retriedAs => "retried_as"
  | .deadLetteredTo => "dead_lettered_to"
  | .publishedStatus => "published_status"
  | .manualRetryTo => "manual_retry_to"

inductive NodeState
  | running | retrying | succeeded | deadLettered | failed | expired | queued | blocked | replayed
  | unknown
  deriving DecidableEq, Repr

def NodeState.name : NodeState → String
  | .running => "running"
  | .retrying => "retrying"
  | .succeeded => "succeeded"
  | .deadLettered => "dead_lettered"
  | .failed => "failed"
  | .expired => "expired"
  | .queued => "queued"
  | .blocked => "blocked"
  | .replayed => "replayed"
  | .unknown => "unknown"

inductive EdgeState
  | retryPath | blocked | traversed
  deriving DecidableEq, Repr

/-- A value of a history, or the copy of a mapping whose keys need not be texts. -/
inductive AnnotationValue
  | value (v : Value)
  | mapping (entries : List (Value × Value))

/-- `annotation == text`. -/
def AnnotationValue.isText (text : String) : AnnotationValue → Bool
  | .value (.str s) => s = text
  | _ => false

structure ExecutionGraphNode where
  id : String
  kind : NodeKind
  taskId : Option String := none
  label : Option String := none
  timestamp : Option String := none
  state : Option NodeState := none
  stateReason : Option String := none
  updatedAt : Option String := none
  annotations : Fields AnnotationValue := []

structure ExecutionGraphEdge where
  source : String
  target : String
  kind : EdgeKind
  timestamp : Option String := none
  state : Option EdgeState := none
  stateReason : Option String := none
  updatedAt : Option String := none
  annotations : Fields AnnotationValue := []

structure ExecutionGraphSummary where
  status : Option String
  startedAt : Option String
  endedAt : Option String
  durationMs : Option Int
  graphCompleteness : String
  liveStateCounts : List (NodeState × Nat)

structure ExecutionGraph where
  taskId : String
  topologyKind : String
  summary : ExecutionGraphSummary
  nodes : List ExecutionGraphNode
  edges : List ExecutionGraphEdge
  taskTypes : List String
  relatedTaskIds : List String

/-! ## Histories -/

abbrev Item := Fields Value

/-- A `dict` from task ids to lists of items. -/
structure Histories where
  entries : Fields (List Item) := []
  nodup : (entries.map Prod.fst).Nodup

def Histories.empty : Histories := ⟨[], .nil⟩

/-- The `dict` with the items of one task. -/
def Histories.single (taskId : String) (items : List Item) : Histories :=
  ⟨[(taskId, items)], List.nodup_singleton _⟩

@[simp] theorem Histories.entries_single (taskId : String) (items : List Item) :
    (single taskId items).entries = [(taskId, items)] := rfl

def Histories.get (h : Histories) (taskId : String) : List Item := (h.entries.lookup taskId).getD []

def Histories.keys (h : Histories) : List String := h.entries.map Prod.fst

/-- The classes that `topology_kind` tells apart. -/
inductive RelaynaTopology
  | sharedStatusWorkflow
  | routedTasksSharedStatusShardedAggregation
  | sharedTasksSharedStatusShardedAggregation
  | routedTasksSharedStatus
  | sharedTasksSharedStatus
  | other (typeName : String)
  deriving DecidableEq, Repr

def topologyKind : RelaynaTopology → String
  | .sharedStatusWorkflow => "shared_status_workflow"
  | .routedTasksSharedStatusShardedAggregation => "routed_tasks_shared_status_sharded_aggregation"
  | .sharedTasksSharedStatusShardedAggregation => "shared_tasks_shared_status_sharded_aggregation"
  | .routedTasksSharedStatus => "routed_tasks_shared_status"
  | .sharedTasksSharedStatus => "shared_tasks_shared_status"
  | .other typeName => typeName

/-- The arguments of `build_execution_graph`. -/
structure Request where
  topology : RelaynaTopology
  taskId : String
  statusHistories : Histories
  observationHistories : Histories
  dlqRecords : Histories
  relatedTaskIds : List String

/-- What `build_execution_graph` raises. -/
inductive GraphError
  | keyError (taskId : String)
  | typeError
  | valueError
  deriving DecidableEq, Repr

/-- A `datetime`, in microseconds of its own wall clock. -/
structure DateTime where
  wall : Int
  utcoffset : Option Int
  deriving DecidableEq, Repr

structure Builtins where
  text : Text
  lower : String → String
  isoformat : Int → String
  fromisoformat : String → Option DateTime
  /-- `int(delta.total_seconds() * 1000)` of a `timedelta` in microseconds. -/
  milliseconds : Int → Int

/-! ## Values -/

/-- What can be a key of a `dict`. -/
def hashable : Value → Bool
  | .list _ | .dict _ => false
  | _ => true

/-- One element of the sequence that `dict(sequence)` is made of. -/
def pairOf : Value → Except GraphError (Value × Value)
  | .list [k, v] => if hashable k then .ok (k, v) else .error .typeError
  | .list _ => .error .valueError
  | .str s =>
    match s.toList with
    | [k, v] => .ok (.str (String.singleton k), .str (String.singleton v))
    | _ => .error .valueError
  | .bytes [k, v] => .ok (.int k.toNat, .int v.toNat)
  | .bytes _ => .error .valueError
  | .dict [(k, _), (v, _)] => .ok (.str k, .str v)
  | .dict _ => .error .valueError
  | _ => .error .typeError

/-- `dict(value)`. -/
def toDict : Value → Except GraphError (List (Value × Value))
  | .dict fields => .ok (fields.map fun entry => (.str entry.1, entry.2))
  | .list xs => xs.mapM pairOf
  | .str s => if s = "" then .ok [] else .error .valueError
  | .bytes b => if b = [] then .ok [] else .error .typeError
  | _ => .error .typeError

/-- `sorted` by a key that is a tuple of texts. -/
def sortedBy {α : Type} (key : α → List String) (items : List α) : List α :=
  items.insertionSort fun a b => key a ≤ key b

/-- `value or None` of a text. -/
def orNone (text : String) : Option String := if text = "" then none else some text

/-- `value.replace("Z", "+00:00")`. -/
def replaceZ (value : String) : String :=
  String.ofList (value.toList.flatMap fun ch => if ch = 'Z' then "+00:00".toList else [ch])

namespace Builtins

variable (c : Builtins)

/-- `str(value or default)`. -/
def textOr (v : Option Value) (default : String) : String :=
  match v with
  | some v => if v.truthy then c.text.str v else default
  | none => default

/-- `_coerce_timestamp`. -/
def coerceTimestamp : Option Value → String
  | none | some .none => ""
  | some (.datetime t) => c.isoformat t
  | some v => c.text.str v

/-- `_sort_by_timestamp`. -/
def sortByTimestamp (items : List Item) : List Item :=
  sortedBy (fun item => [c.coerceTimestamp (item.lookup "timestamp"),
    c.text.str ((item.lookup "event_id").getD (.str ""))]) items

/-- `_parse_timestamp`. -/
def parseTimestamp (value : String) : Except GraphError DateTime :=
  match c.fromisoformat (replaceZ value) with
  | some d => .ok d
  | none => .error .valueError

end Builtins

/-- `a - b` of two `datetime`s: both have an offset or neither has. -/
def DateTime.sub (a b : DateTime) : Except GraphError Int :=
  match a.utcoffset, b.utcoffset with
  | some x, some y => .ok ((a.wall - x) - (b.wall - y))
  | none, none => .ok (a.wall - b.wall)
  | _, _ => .error .typeError

/-- `item.get(key, default)` as an annotation. -/
def noted (item : Item) (key : String) (default : Value := .none) : String × AnnotationValue :=
  (key, .value ((item.lookup key).getD default))

/-! ## The graph while it is built -/

structure PendingRetryLink where
  taskId : String
  retryNodeId : String
  retryTimestamp : Option String

structure Build where
  nodes : List ExecutionGraphNode := []
  edges : List ExecutionGraphEdge := []
  allTimestamps : List String := []
  taskNodeIds : Fields String := []
  attemptsByTask : String → List String := fun _ => []
  stageAttempts : List String := []
  workflowMessageNodes : String → Option String := fun _ => none
  taskTypes : List String := []
  pendingRetryLinks : List PendingRetryLink := []
  itemNodes : List String := []

/-- `add_node` finds a node with the id. -/
def ExecutionGraphNode.merge (existing node : ExecutionGraphNode) : ExecutionGraphNode :=
  { existing with
    annotations := existing.annotations.update node.annotations
    label := existing.label.or node.label
    timestamp := existing.timestamp.or node.timestamp
    taskId := existing.taskId.or node.taskId }

/-- A timestamp as `if timestamp:` lets it through. -/
def stamped (timestamp : Option String) : List String := (timestamp.filter (· ≠ "")).toList

namespace Build

/-- The stripped `task_type` of a node's annotations. -/
def taskTypeOf (node : ExecutionGraphNode) : Option String :=
  match node.annotations.lookup "task_type" with
  | some (.value (.str s)) => orNone (strip s)
  | _ => none

def addNode (b : Build) (node : ExecutionGraphNode) : Build :=
  if node.id ∈ b.nodes.map ExecutionGraphNode.id then
    { b with nodes := Keyed.amend ExecutionGraphNode.id node.id (·.merge node) b.nodes }
  else
    { b with
      nodes := b.nodes ++ [node]
      allTimestamps := b.allTimestamps ++ stamped node.timestamp
      taskTypes := b.taskTypes ++ ((taskTypeOf node).filter (· ∉ b.taskTypes)).toList }

def addEdge (b : Build) (edge : ExecutionGraphEdge) : Build :=
  { b with
    edges := b.edges ++ [edge]
    allTimestamps := b.allTimestamps ++ stamped edge.timestamp }

/-- `add_node` of the node that an item stands for. -/
def addItem (b : Build) (node : ExecutionGraphNode) : Build :=
  { b.addNode node with itemNodes := b.itemNodes ++ [node.id] }

/-- `task_node_ids[task_id]`. -/
def taskNode (b : Build) (taskId : String) : Except GraphError String :=
  match b.taskNodeIds.lookup taskId with
  | some id => .ok id
  | none => .error (.keyError taskId)

def node? (b : Build) (id : String) : Option ExecutionGraphNode :=
  Keyed.get? ExecutionGraphNode.id id b.nodes

def attempts (b : Build) (taskId : String) : List ExecutionGraphNode :=
  (b.attemptsByTask taskId).filterMap b.node?

def stages (b : Build) : List ExecutionGraphNode := b.stageAttempts.filterMap b.node?

end Build

def ExecutionGraphNode.hasStage (node : ExecutionGraphNode) (stage : String) : Bool :=
  (node.annotations.lookup "stage").any (AnnotationValue.isText stage)

/-- `_latest_attempt`. -/
def latestAttempt (attempts : List ExecutionGraphNode) (timestamp : Option String) :
    Option ExecutionGraphNode :=
  match timestamp with
  | none => attempts.getLast?
  | some timestamp =>
    (attempts.filter fun item => item.timestamp.getD "" ≤ timestamp).getLast?.or attempts.head?

/-- `_next_attempt`. -/
def nextAttempt (attempts : List ExecutionGraphNode) (timestamp : Option String) :
    Option ExecutionGraphNode :=
  timestamp.bind fun timestamp => attempts.find? fun item => timestamp < item.timestamp.getD ""

/-- `_latest_stage_attempt`. -/
def latestStageAttempt (attempts : List ExecutionGraphNode) (stage timestamp : Option String) :
    Option ExecutionGraphNode :=
  (attempts.filter fun item =>
    stage.all item.hasStage && timestamp.all (item.timestamp.getD "" ≤ ·)).getLast?

/-! ## Observations -/

/-- The branches of the loop over the observations. -/
inductive EventKind
  | messageReceived | resourceSampled | workflowPublished | workflowReceived | retryScheduled
  | deadLettered | other
  deriving DecidableEq, Repr

def EventKind.ofType (eventType : String) : EventKind :=
  if eventType ∈ ["TaskMessageReceived", "AggregationMessageReceived"] then .messageReceived
  else if eventType = "TaskResourceSampled" then .resourceSampled
  else if eventType = "WorkflowMessagePublished" then .workflowPublished
  else if eventType = "WorkflowMessageReceived" then .workflowReceived
  else if eventType ∈ ["ConsumerRetryScheduled", "AggregationRetryScheduled"] then .retryScheduled
  else if eventType ∈ ["ConsumerDeadLetterPublished", "AggregationDeadLetterPublished"] then
    .deadLettered
  else .other

/-! ### The names of the nodes -/

def taskNodeId (root taskId : String) : String :=
  if taskId = root then "task:" ++ taskId else "aggregation_child:" ++ taskId

def attemptId (taskId : String) (number : Nat) : String :=
  "task-attempt:" ++ taskId ++ ":" ++ toString number

def sampleId (taskId sampleKind stamp : String) : String :=
  "resource-sample:" ++ taskId ++ ":" ++ sampleKind ++ ":" ++ stamp

def messageNodeId (messageId : String) : String := "workflow-message:" ++ messageId

def stageAttemptId (taskId stage : String) (number : Nat) : String :=
  "stage-attempt:" ++ taskId ++ ":" ++ stage ++ ":" ++ toString number

def retryId (taskId : String) (number : Nat) : String :=
  "retry:" ++ taskId ++ ":" ++ toString number

def dlqId (taskId : String) (number : Nat) : String := "dlq:" ++ taskId ++ ":" ++ toString number

def statusId (taskId : String) (number : Nat) : String :=
  "status:" ++ taskId ++ ":" ++ toString number

def recordId (taskId : String) (number : Nat) : String :=
  "dlq:" ++ taskId ++ ":record:" ++ toString number

namespace Builtins

variable (c : Builtins)

def eventKind (item : Item) : EventKind :=
  .ofType (c.textOr (item.lookup "event_type") "")

def eventTimestamp (item : Item) : String := c.coerceTimestamp (item.lookup "timestamp")

def sampleKind (item : Item) : String :=
  (orNone (c.text.stripped (item.lookup "sample_kind"))).getD "sample"

def messageId (item : Item) : String := c.text.stripped (item.lookup "message_id")

def originStage (item : Item) : String := c.text.stripped (item.lookup "origin_stage")

def stageName (item : Item) : String := c.textOr (item.lookup "stage") "unknown"

/-! ### The branches -/

def attemptNode (taskId : String) (number : Nat) (item : Item) : ExecutionGraphNode where
  id := attemptId taskId number
  kind := .taskAttempt
  taskId := some taskId
  label := some (taskId ++ " attempt " ++ toString number)
  timestamp := some (c.eventTimestamp item)
  annotations := [noted item "queue_name", noted item "correlation_id",
    noted item "retry_attempt" (.int 0), noted item "task_type", noted item "parent_task_id",
    noted item "consumer_name"]

def observeAttempt (b : Build) (taskId : String) (item : Item) : Except GraphError Build :=
  let node := c.attemptNode taskId ((b.attemptsByTask taskId).length + 1) item
  let added := b.addItem node
  let b := { added with
    attemptsByTask :=
      Function.update added.attemptsByTask taskId (added.attemptsByTask taskId ++ [node.id]) }
  (b.taskNode taskId).map fun source => b.addEdge
    { source := source, target := node.id, kind := .receivedBy, timestamp := node.timestamp }

def sampleNode (taskId : String) (size : Nat) (item : Item) : ExecutionGraphNode where
  id := sampleId taskId (c.sampleKind item)
    ((orNone (c.eventTimestamp item)).getD (toString size))
  kind := .resourceSample
  taskId := some taskId
  label := some (c.sampleKind item ++ " resource sample")
  timestamp := some (c.eventTimestamp item)
  annotations := [("sample_kind", .value (.str (c.sampleKind item))),
    noted item "cpu_process_seconds", noted item "memory_rss_bytes", noted item "queue_name",
    noted item "correlation_id", noted item "task_type", noted item "consumer_name"]

def observeSample (b : Build) (taskId : String) (item : Item) : Build :=
  b.addItem (c.sampleNode taskId b.nodes.length item)

def messageNode (taskId : String) (item : Item) : ExecutionGraphNode where
  id := messageNodeId (c.messageId item)
  kind := .workflowMessage
  taskId := some taskId
  label := some (c.textOr (item.lookup "stage") (c.messageId item))
  timestamp := some (c.eventTimestamp item)
  annotations := [("message_id", .value (.str (c.messageId item))), noted item "stage",
    noted item "origin_stage", noted item "routing_key", noted item "queue_name",
    noted item "correlation_id"]

/-- `workflow_message_nodes[message_id] = add_node(...)`. -/
def addMessage (b : Build) (taskId : String) (item : Item) : Build :=
  let node := c.messageNode taskId item
  let added := b.addNode node
  { added with
    workflowMessageNodes :=
      Function.update added.workflowMessageNodes (c.messageId item) (some node.id) }

def observePublished (b : Build) (taskId : String) (item : Item) : Build :=
  if c.messageId item = "" then b
  else
    let b := c.addMessage b taskId item
    let target := messageNodeId (c.messageId item)
    let timestamp := some (c.eventTimestamp item)
    if c.originStage item ≠ "" then
      match latestStageAttempt b.stages (some (c.originStage item)) timestamp with
      | some attempt => b.addEdge
          { source := attempt.id, target := target, kind := .stageTransitionedTo,
            timestamp := timestamp }
      | none => b
    else
      match b.taskNodeIds.lookup taskId with
      | some source => b.addEdge
          { source := source, target := target, kind := .receivedBy, timestamp := timestamp }
      | none => b

/-- The message node of a reception, made up when the publication was not observed. -/
def receivedMessage (b : Build) (taskId : String) (item : Item) :
    Except GraphError (Build × Option String) :=
  if c.messageId item = "" then .ok (b, none)
  else
    match b.workflowMessageNodes (c.messageId item) with
    | some id => .ok (b, some id)
    | none =>
      let b := c.addMessage b taskId item
      let target := messageNodeId (c.messageId item)
      (b.taskNode taskId).map fun source =>
        (b.addEdge
          { source := source, target := target, kind := .receivedBy,
            timestamp := some (c.eventTimestamp item) }, some target)

def stageAttemptNode (taskId : String) (number : Nat) (item : Item) : ExecutionGraphNode where
  id := stageAttemptId taskId (c.stageName item) number
  kind := .stageAttempt
  taskId := some taskId
  label := some (c.stageName item ++ " attempt " ++ toString number)
  timestamp := some (c.eventTimestamp item)
  annotations := [("stage", .value (.str (c.stageName item))),
    ("message_id", .value ((orNone (c.messageId item)).elim .none .str)),
    noted item "origin_stage", noted item "queue_name", noted item "correlation_id",
    noted item "retry_attempt" (.int 0), noted item "consumer_name"]

def observeReceived (b : Build) (taskId : String) (item : Item) : Except GraphError Build :=
  (c.receivedMessage b taskId item).map fun (b, message) =>
    let number := b.stages.countP (·.hasStage (c.stageName item)) + 1
    let node := c.stageAttemptNode taskId number item
    let added := b.addItem node
    let b := { added with stageAttempts := added.stageAttempts ++ [node.id] }
    match message with
    | some message => b.addEdge
        { source := message, target := node.id, kind := .enteredStage, timestamp := node.timestamp }
    | none => b

/-- A `retried_as` edge of the task. -/
def retried (taskId : String) (edge : ExecutionGraphEdge) : Bool :=
  edge.kind = .retriedAs && (edge.annotations.lookup "task_id").any (AnnotationValue.isText taskId)

def retryNode (taskId : String) (number : Nat) (item : Item) : ExecutionGraphNode where
  id := retryId taskId number
  kind := .retry
  taskId := some taskId
  label := some ("retry " ++ c.text.str ((item.lookup "retry_attempt").getD (.int 0)))
  timestamp := some (c.eventTimestamp item)
  annotations := [noted item "queue_name", noted item "source_queue_name",
    noted item "retry_attempt", noted item "max_retries", noted item "reason",
    ("task_id", .value (.str taskId))]

def observeRetry (b : Build) (taskId : String) (item : Item) : Build :=
  let node := c.retryNode taskId (b.edges.countP (retried taskId) + 1) item
  let b := b.addNode node
  let b :=
    match latestAttempt (b.attempts taskId) node.timestamp with
    | some attempt => b.addEdge
        { source := attempt.id, target := node.id, kind := .retriedAs, timestamp := node.timestamp,
          annotations := [("task_id", .value (.str taskId))] }
    | none => b
  { b with pendingRetryLinks := b.pendingRetryLinks ++ [⟨taskId, node.id, node.timestamp⟩] }

def deadLetterNode (taskId : String) (number : Nat) (item : Item) : ExecutionGraphNode where
  id := dlqId taskId number
  kind := .dlqRecord
  taskId := some taskId
  label := some (c.textOr (item.lookup "reason") "dlq")
  timestamp := some (c.eventTimestamp item)
  annotations := [noted item "queue_name", noted item "source_queue_name",
    noted item "retry_attempt", noted item "max_retries", noted item "reason"]

def observeDeadLetter (b : Build) (taskId : String) (item : Item) : Build :=
  let number := b.nodes.countP (fun n => n.kind = .dlqRecord && n.taskId = some taskId) + 1
  let node := c.deadLetterNode taskId number item
  let b := b.addItem node
  match latestAttempt (b.attempts taskId) node.timestamp with
  | some attempt => b.addEdge
      { source := attempt.id, target := node.id, kind := .deadLetteredTo,
        timestamp := node.timestamp }
  | none => b

def observe (b : Build) (entry : String × Item) : Except GraphError Build :=
  match c.eventKind entry.2 with
  | .messageReceived => c.observeAttempt b entry.1 entry.2
  | .resourceSampled => .ok (c.observeSample b entry.1 entry.2)
  | .workflowPublished => .ok (c.observePublished b entry.1 entry.2)
  | .workflowReceived => c.observeReceived b entry.1 entry.2
  | .retryScheduled => .ok (c.observeRetry b entry.1 entry.2)
  | .deadLettered => .ok (c.observeDeadLetter b entry.1 entry.2)
  | .other => .ok b

/-! ## Statuses, retries and records -/

/-- `dict(status_event.get("meta") or {})`. -/
def metaOf (event : Item) : Except GraphError (List (Value × Value)) :=
  match event.lookup "meta" with
  | some v => if v.truthy then toDict v else .ok []
  | none => .ok []

def statusNode (taskId : String) (number : Nat) (event : Item) (entries : List (Value × Value)) :
    ExecutionGraphNode where
  id := statusId taskId number
  kind := .statusEvent
  taskId := some taskId
  label := some (c.textOr (event.lookup "status") "status")
  timestamp := some (c.eventTimestamp event)
  annotations := [noted event "status", noted event "message", ("meta", .mapping entries)]

/-- Where a status was published. -/
def statusSource (topology : RelaynaTopology) (b : Build) (taskId : String)
    (timestamp : Option String) : Except GraphError String :=
  let source :=
    if topology = .sharedStatusWorkflow then latestStageAttempt b.stages none timestamp
    else latestAttempt (b.attempts taskId) timestamp
  match source with
  | some attempt => .ok attempt.id
  | none => b.taskNode taskId

/-- The edge of a manual retry, from the attempt before the status to the one after it. -/
def linkManualRetry (b : Build) (taskId : String) (event : Item) (timestamp : Option String) :
    Build :=
  if c.lower (c.textOr (event.lookup "status") "") = "manual_retrying" then
    let attempts := b.attempts taskId
    match latestAttempt attempts timestamp, nextAttempt attempts timestamp with
    | some source, some target => b.addEdge
        { source := source.id, target := target.id, kind := .manualRetryTo, timestamp := timestamp }
    | _, _ => b
  else b

/-- One round of the loop over the status histories. -/
def addStatus (topology : RelaynaTopology) (b : Build) (entry : String × Nat × Item) :
    Except GraphError Build :=
  let (taskId, number, event) := entry
  (metaOf event).bind fun entries =>
    let node := c.statusNode taskId number event entries
    let b := b.addItem node
    (statusSource topology b taskId node.timestamp).map fun source =>
      c.linkManualRetry (b.addEdge
        { source := source, target := node.id, kind := .publishedStatus,
          timestamp := node.timestamp }) taskId event node.timestamp

/-- One round of the loop over the pending retries. -/
def linkRetry (b : Build) (link : PendingRetryLink) : Build :=
  match nextAttempt (b.attempts link.taskId) link.retryTimestamp with
  | some next => b.addEdge
      { source := link.retryNodeId, target := next.id, kind := .receivedBy,
        timestamp := next.timestamp }
  | none => b

def recordNode (taskId : String) (number : Nat) (item : Item) : ExecutionGraphNode where
  id := recordId taskId number
  kind := .dlqRecord
  taskId := some taskId
  label := some (c.textOr (item.lookup "reason") (c.textOr (item.lookup "queue_name") "dlq"))
  timestamp := some (c.coerceTimestamp (item.lookup "dead_lettered_at"))
  annotations := item.map fun entry => (entry.1, .value entry.2)

/-- One round of the loop over the DLQ records. A record whose id is taken is left out. -/
def addRecord (b : Build) (entry : String × Nat × Item) : Except GraphError Build :=
  let (taskId, number, item) := entry
  let node := c.recordNode taskId number item
  if node.id ∈ b.nodes.map ExecutionGraphNode.id then
    .ok { b with itemNodes := b.itemNodes ++ [node.id] }
  else
    let b := b.addItem node
    let source : Except GraphError String :=
      match latestAttempt (b.attempts taskId) node.timestamp with
      | some attempt => .ok attempt.id
      | none => b.taskNode taskId
    source.map fun source => b.addEdge
      { source := source, target := node.id, kind := .deadLetteredTo, timestamp := node.timestamp }

/-! ## Live states -/

/-- `_state_from_status`. -/
def stateFromStatus (status : String) : NodeState :=
  let normalized := c.lower (strip status)
  if normalized ∈ ["processing", "running", "started", "planning"] then .running
  else if normalized ∈ ["retrying", "manual_retrying"] then .retrying
  else if normalized ∈ ["completed", "complete", "succeeded", "success"] then .succeeded
  else if normalized ∈ ["dead_lettered", "dlq", "dead-lettered"] then .deadLettered
  else if normalized ∈ ["failed", "failure", "error"] then .failed
  else if normalized ∈ ["expired", "lease_expired"] then .expired
  else if normalized ∈ ["queued", "pending", "waiting"] then .queued
  else if normalized = "blocked" then .blocked
  else .unknown

end Builtins

/-- `node.annotations.get(key)`; only `meta` is a mapping. -/
def ExecutionGraphNode.annotated (node : ExecutionGraphNode) (key : String) : Option Value :=
  match node.annotations.lookup key with
  | some (.value v) => some v
  | _ => none

/-- `_coerce_timestamp(timestamp) or None` of a text. -/
def present (timestamp : Option String) : Option String := timestamp.filter (· ≠ "")

/-- `_latest_timestamp`. -/
def latestTimestamp (current candidate : Option String) : Option String :=
  match present current, present candidate with
  | none, candidate => candidate
  | current, none => current
  | some current, some candidate => some (max current candidate)

/-- A reason that names the status it comes from. -/
def reasonOf (kind status : String) (default : String) : String :=
  if status = "" then default else kind ++ ":" ++ status

namespace Builtins

variable (c : Builtins)

/-- `_initial_node_state`. -/
def initialNodeState (node : ExecutionGraphNode) (latestStatus : String → Option Item) :
    NodeState × String × Option String :=
  let timestamp := present node.timestamp
  let unknown := (.unknown, "insufficient_evidence", timestamp)
  match node.kind with
  | .statusEvent =>
    let status := strip (c.textOr (node.annotated "status") (node.label.getD ""))
    (c.stateFromStatus status, reasonOf "status" status "status_event", timestamp)
  | .retry => (.retrying, "retry_scheduled", timestamp)
  | .dlqRecord =>
    if c.lower (c.text.stripped (node.annotated "state")) = "replayed" then
      (.replayed, "dlq_replayed",
        (orNone (c.coerceTimestamp (node.annotated "replayed_at"))).or timestamp)
    else (.deadLettered, "dlq_recorded", timestamp)
  | .taskAttempt | .stageAttempt => (.running, "message_received", timestamp)
  | .workflowMessage => (.queued, "workflow_message_created", timestamp)
  | .task | .aggregationChild =>
    match node.taskId.bind latestStatus with
    | some latest =>
      let status := c.text.stripped (latest.lookup "status")
      (c.stateFromStatus status, reasonOf "latest_status" status "latest_status",
        (orNone (c.eventTimestamp latest)).or timestamp)
    | none => unknown
  | .resourceSample => unknown

end Builtins

/-- `_set_node_state`. -/
def ExecutionGraphNode.setState (node : ExecutionGraphNode) (state : NodeState)
    (reason updatedAt : Option String) : ExecutionGraphNode :=
  { node with
    state := some state
    stateReason := reason
    updatedAt := latestTimestamp node.updatedAt updatedAt }

/-- `_edge_state`. -/
def edgeState : EdgeKind → EdgeState
  | .retriedAs | .manualRetryTo => .retryPath
  | .deadLetteredTo => .blocked
  | .receivedBy | .enteredStage | .stageTransitionedTo | .publishedStatus | .aggregatedInto =>
    .traversed

/-- `_set_edge_state` of `_edge_state`. -/
def ExecutionGraphEdge.settle (edge : ExecutionGraphEdge) : ExecutionGraphEdge :=
  { edge with
    state := some (edgeState edge.kind)
    stateReason := some edge.kind.name
    updatedAt := latestTimestamp edge.updatedAt (present edge.timestamp) }

/-- What an edge says about the states of its ends. -/
def propagate (nodes : List ExecutionGraphNode) (edge : ExecutionGraphEdge) :
    List ExecutionGraphNode :=
  let set (id : String) (f : ExecutionGraphNode → ExecutionGraphNode) :=
    Keyed.amend ExecutionGraphNode.id id f
  match edge.kind with
  | .deadLetteredTo =>
    set edge.target
      (fun target => target.setState (target.state.getD .deadLettered) target.stateReason
        target.updatedAt)
      (set edge.source (·.setState .deadLettered (some "dead_lettered_to") edge.timestamp) nodes)
  | .retriedAs | .manualRetryTo =>
    set edge.source
      (fun source =>
        if source.state ∈ [some .deadLettered, some .replayed, some .succeeded, some .failed] then
          source
        else source.setState .retrying (some edge.kind.name) edge.timestamp) nodes
  | .publishedStatus =>
    match Keyed.get? ExecutionGraphNode.id edge.target nodes with
    | some target =>
      match target.state with
      | some state =>
        if state ∈ [.succeeded, .failed, .retrying] then
          set edge.source
            (fun source =>
              if source.state ∈ [some .deadLettered, some .replayed] then source
              else source.setState state (some "latest_status") target.updatedAt) nodes
        else nodes
      | none => nodes
    | none => nodes
  | _ => nodes

/-- `_project_live_state`; `latestStatus` is `latest_status_by_task`. -/
def projectLiveState (c : Builtins) (nodes : List ExecutionGraphNode)
    (edges : List ExecutionGraphEdge) (latestStatus : String → Option Item) :
    List ExecutionGraphNode × List ExecutionGraphEdge :=
  let initial := nodes.map fun node =>
    let (state, reason, updatedAt) := c.initialNodeState node latestStatus
    node.setState state (some reason) updatedAt
  let edges := edges.map ExecutionGraphEdge.settle
  (edges.foldl propagate initial, edges)

/-- `counts[state] = counts.get(state, 0) + 1`. -/
def countState (counts : List (NodeState × Nat)) (state : NodeState) : List (NodeState × Nat) :=
  if state ∈ counts.map Prod.fst then
    Keyed.amend Prod.fst state (fun entry => (entry.1, entry.2 + 1)) counts
  else counts ++ [(state, 1)]

/-- `_live_state_counts`. -/
def liveStateCounts (nodes : List ExecutionGraphNode) : List (NodeState × Nat) :=
  sortedBy (fun entry => [entry.1.name])
    (nodes.foldl (fun counts node => countState counts (node.state.getD .unknown)) [])

/-! ## The graph -/

namespace Builtins

variable (c : Builtins)

/-- `duration_ms`. -/
def duration (startedAt endedAt : Option String) : Except GraphError (Option Int) :=
  match present startedAt, present endedAt with
  | some started, some ended =>
    (c.parseTimestamp ended).bind fun ended =>
      (c.parseTimestamp started).bind fun started =>
        (ended.sub started).map fun delta => some (c.milliseconds delta)
  | _, _ => .ok none

/-- `_build_summary`. -/
def buildSummary (statusHistory : List Item) (allTimestamps : List String)
    (hasObservations : Bool) (nodes : List ExecutionGraphNode) :
    Except GraphError ExecutionGraphSummary :=
  let latest := (c.sortByTimestamp statusHistory).getLast?
  let timestamps := sortedBy (fun t => [t]) (allTimestamps.filter (· ≠ ""))
  let startedAt := timestamps.head?
  let endedAt := (latest.map c.eventTimestamp).or timestamps.getLast?
  (c.duration startedAt endedAt).map fun durationMs =>
    { status := latest.bind fun event => orNone (c.text.stripped (event.lookup "status"))
      startedAt := startedAt
      endedAt := endedAt
      durationMs := durationMs
      graphCompleteness := if hasObservations then "full" else "partial"
      liveStateCounts := liveStateCounts nodes }

end Builtins

namespace Build

/-- `add_task_node`. -/
def addTaskNode (b : Build) (root taskId : String) : Build :=
  if (b.taskNodeIds.lookup taskId).isSome then b
  else
    let added := b.addNode
      { id := taskNodeId root taskId
        kind := if taskId = root then .task else .aggregationChild
        taskId := some taskId
        label := some taskId }
    { added with taskNodeIds := added.taskNodeIds ++ [(taskId, taskNodeId root taskId)] }

/-- A related task and its edge to the task. -/
def addRelated (b : Build) (root taskId : String) : Build :=
  (b.addTaskNode root taskId).addEdge
    { source := taskNodeId root taskId, target := taskNodeId root root, kind := .aggregatedInto }

end Build

namespace Request

variable (r : Request) (c : Builtins)

/-- The related ids without repetitions, the empty one and the task's own. -/
def relatedIds : List String :=
  sortedBy (fun t => [t]) (r.relatedTaskIds.filter fun t => t ≠ "" && t ≠ r.taskId).dedup

def start : Build :=
  r.relatedIds.foldl (·.addRelated r.taskId ·) (Build.addTaskNode {} r.taskId r.taskId)

/-- The observations in the order of the loop. -/
def observations : List (String × Item) :=
  r.observationHistories.entries.flatMap fun entry =>
    (c.sortByTimestamp entry.2).map (entry.1, ·)

/-- The tasks in the order of the loop over the status histories. -/
def statusTasks : List String :=
  sortedBy (fun t => [t])
    (r.taskId :: (r.relatedIds ++ r.statusHistories.keys ++ r.observationHistories.keys)).dedup

/-- Items numbered from 1. -/
def numbered (taskId : String) (items : List Item) : List (String × Nat × Item) :=
  (items.zipIdx 1).map fun entry => (taskId, entry.2, entry.1)

def statuses : List (String × Nat × Item) :=
  r.statusTasks.flatMap fun t => numbered t (c.sortByTimestamp (r.statusHistories.get t))

def records : List (String × Nat × Item) :=
  r.dlqRecords.entries.flatMap fun entry => numbered entry.1 entry.2

/-- `latest_status_by_task.get(task_id)`. -/
def latestStatus (taskId : String) : Option Item :=
  (c.sortByTimestamp (r.statusHistories.get taskId)).getLast?

/-- The loops of `build_execution_graph`. -/
def collect : Except GraphError Build :=
  (r.observations c).foldlM c.observe r.start |>.bind fun b =>
    (r.statuses c).foldlM (c.addStatus r.topology) b |>.bind fun b =>
      r.records.foldlM c.addRecord (b.pendingRetryLinks.foldl Builtins.linkRetry b)

/-- What follows the loops. -/
def finish (b : Build) : Except GraphError ExecutionGraph :=
  let nodes := sortedBy (fun node => [node.timestamp.getD "", node.id]) b.nodes
  let edges := sortedBy
    (fun edge => [edge.timestamp.getD "", edge.kind.name, edge.source, edge.target]) b.edges
  let (nodes, edges) := projectLiveState c nodes edges (r.latestStatus c)
  (c.buildSummary (r.statusHistories.get r.taskId) b.allTimestamps
    (!r.observationHistories.entries.isEmpty) nodes).map fun summary =>
      { taskId := r.taskId
        topologyKind := topologyKind r.topology
        summary := summary
        nodes := nodes
        edges := edges
        taskTypes := sortedBy (fun t => [t]) b.taskTypes
        relatedTaskIds := r.relatedIds }

def buildExecutionGraph : Except GraphError ExecutionGraph :=
  (r.collect c).bind (r.finish c)

end Request

end Relayna.Observability.Execution
