import Mathlib.Data.Prod.Lex
import Mathlib.Data.String.Basic
import Relayna.Contracts.Aliases
import Relayna.Foundation.Names

/-!
# Tasks of other services

`StudioFederationService`: a task is looked up at a service by its latest status, or by its history
where the service has no route for statuses, and tasks of different services are joined by their
correlation, their lineage and their workflow.

What the services answer is given: `Answers` is what one of them says to one lookup, `Reads` what it
says to the four requests for the details of a task. `gather` is `List.mapM`, whose result does not
depend on the order in which the answers arrive; with several exceptions that nothing catches, it
raises the first of the list.
-/
namespace Relayna.Studio.Federation

open Python Contracts

abbrev Payload := Fields Value

/-- A registered service, with the aliases of its capability document if that is valid. -/
structure Service where
  serviceId : String
  name : String
  environment : String
  disabled : Bool
  payloadAliases : Option (Fields String)
  named : strip serviceId ≠ ""
  deriving DecidableEq

structure StudioFederationError where
  statusCode : Nat
  detail : String
  code : String
  serviceId : Option String
  upstreamStatus : Option Nat
  retryable : Bool
  deriving DecidableEq, Repr

structure FederatedError where
  detail : String
  code : String
  serviceId : Option String
  upstreamStatus : Option Nat
  retryable : Bool
  deriving DecidableEq, Repr

def StudioFederationError.toModel (e : StudioFederationError) : FederatedError :=
  ⟨e.detail, e.code, e.serviceId, e.upstreamStatus, e.retryable⟩

/-- An exception: an error of the federation, or one that nothing here catches. -/
inductive Failure where
  | federation (e : StudioFederationError)
  | other

structure Answers where
  status : Except Failure Payload
  history : Except Failure Payload

structure Reads extends Answers where
  dlqMessages : Except Failure Payload
  executionGraph : Except Failure Payload

/-! ## References to tasks -/

structure StudioTaskPointer where
  serviceId : String
  taskId : String
  deriving DecidableEq, Repr

structure StudioTaskRef where
  serviceId : String
  taskId : String
  correlationId : Option String
  parentRefs : List StudioTaskPointer
  childRefs : List StudioTaskPointer
  deriving DecidableEq, Repr

def buildTaskPointer (serviceId taskId : String) : Except Failure StudioTaskPointer :=
  if strip serviceId = "" ∨ strip taskId = "" then .error .other
  else .ok ⟨strip serviceId, strip taskId⟩

def normalizeOptionalString (value : Option String) : Option String :=
  (value.map strip).filter (· ≠ "")

def buildTaskRef (serviceId taskId : String) (correlationId : Option String)
    (parentRefs childRefs : List StudioTaskPointer) : Except Failure StudioTaskRef :=
  if strip serviceId = "" ∨ strip taskId = "" then .error .other
  else .ok ⟨strip serviceId, strip taskId, normalizeOptionalString correlationId,
    parentRefs.eraseDups, childRefs.eraseDups⟩

def optionValue (s : Option String) : Value := (s.map .str).getD .none

def StudioTaskPointer.modelDump (p : StudioTaskPointer) : Value :=
  .dict [("service_id", .str p.serviceId), ("task_id", .str p.taskId)]

def StudioTaskRef.modelDump (r : StudioTaskRef) : Value :=
  .dict [("service_id", .str r.serviceId), ("task_id", .str r.taskId),
    ("correlation_id", optionValue r.correlationId),
    ("parent_refs", .list (r.parentRefs.map StudioTaskPointer.modelDump)),
    ("child_refs", .list (r.childRefs.map StudioTaskPointer.modelDump))]

/-- A field with `min_length=1`. -/
def nonEmptyField (d : Payload) (field : String) : Option String :=
  match d.lookup field with
  | some (.str s) => if s = "" then none else some s
  | _ => none

def validatePointer : Value → Option StudioTaskPointer
  | .dict d => do
    let serviceId ← nonEmptyField d "service_id"
    let taskId ← nonEmptyField d "task_id"
    pure ⟨serviceId, taskId⟩
  | _ => none

def validatePointers (d : Payload) (field : String) : Option (List StudioTaskPointer) :=
  match d.lookup field with
  | none => some []
  | some (.list xs) => xs.mapM validatePointer
  | some _ => none

def validateCorrelation (d : Payload) : Option (Option String) :=
  match d.lookup "correlation_id" with
  | none | some .none => some none
  | some (.str s) => some (some s)
  | some _ => none

/-- `StudioTaskRef.model_validate`. -/
def validateTaskRef (d : Payload) : Option StudioTaskRef := do
  let serviceId ← nonEmptyField d "service_id"
  let taskId ← nonEmptyField d "task_id"
  let correlationId ← validateCorrelation d
  let parentRefs ← validatePointers d "parent_refs"
  let childRefs ← validatePointers d "child_refs"
  pure ⟨serviceId, taskId, correlationId, parentRefs, childRefs⟩

def taskRefFromPayload (payload : Payload) : Option StudioTaskRef :=
  match payload.lookup "task_ref" with
  | some (.dict d) => validateTaskRef d
  | _ => none

/-! ## Payloads -/

section Payloads

variable (x : Text)

def normalizeString : Option Value → Option String
  | none | some .none => none
  | some v => if strip (x.str v) = "" then none else some (strip (x.str v))

/-- `str(item.get(field) or "")`. -/
def fieldText (d : Payload) (field : String) : String :=
  match d.lookup field with
  | some v => if v.truthy then x.str v else ""
  | none => ""

def payloadTaskId (payload : Payload) : Option String :=
  normalizeString x (payload.lookup "task_id")

variable (service : Service)

/-- The alias of a field in the capability document. -/
def Service.alias (field : String) : Option String :=
  service.payloadAliases.bind (·.lookup field)

def payloadValue (payload : Payload) (field : String) : Option String :=
  (normalizeString x (payload.lookup field)).or
    ((service.alias field).bind fun other => normalizeString x (payload.lookup other))

def eventCorrelationId : Option Value → Option String
  | some (.dict event) =>
    ((service.alias "correlation_id").bind fun other => normalizeString x (event.lookup other)).or
      (normalizeString x (event.lookup "correlation_id"))
  | _ => none

def eventParentTaskIds : Option Value → List String
  | some (.dict event) =>
    match event.lookup "meta" with
    | some (.dict fields) =>
      (((service.alias "parent_task_id").bind fun other =>
          normalizeString x (fields.lookup other)).or
        (normalizeString x (fields.lookup "parent_task_id"))).toList
    | _ => []
  | _ => []

def pointersForTaskIds (serviceId : String) (taskIds : List String) :
    Except Failure (List StudioTaskPointer) :=
  (taskIds.filterMap fun taskId => normalizeString x (some (.str taskId))).eraseDups.mapM
    (buildTaskPointer serviceId)

def normalizeStatusPayload (payload : Payload) (requestedTaskId : Option String) :
    Except Failure Payload := do
  let taskId := (payloadValue x service payload "task_id").or requestedTaskId
  let event := payload.lookup "event"
  let parents ← pointersForTaskIds x service.serviceId (eventParentTaskIds x service event)
  let taskRef ← buildTaskRef service.serviceId (taskId.getD "")
    (eventCorrelationId x service event) parents []
  pure (Fields.update payload [("service_id", .str service.serviceId),
    ("task_id", optionValue taskId), ("task_ref", taskRef.modelDump)])

/-- The event of a history that stands for the status of its task. -/
def latestHistoryEvent (events : List Value) : Except Failure Payload :=
  match events.getLast? with
  | some (.dict event) => .ok event
  | _ => .error (.federation ⟨502, "Relayna history response returned an invalid event shape.",
      "invalid_response_shape", none, none, false⟩)

def statusOfHistory (taskId : String) (events : List Value) : Except Failure Payload := do
  let event ← latestHistoryEvent events
  normalizeStatusPayload x service [("service_id", .str service.serviceId),
    ("task_id", .str taskId), ("event", .dict event)] (some taskId)

/-- A service without a route for statuses is asked for its history. -/
def searchLatestStatus (taskId : String) (answers : Answers) : Except Failure (Option Payload) :=
  match answers.status with
  | .ok payload => .ok (some payload)
  | .error .other => .error .other
  | .error (.federation e) =>
    if e.code ≠ "unsupported_route" then .error (.federation e)
    else do
      let history ← answers.history
      match history.lookup "events" with
      | some (.list events) =>
        if events.isEmpty then pure none else some <$> statusOfHistory x service taskId events
      | _ => pure none

end Payloads

/-! ## Looking a task up at all services -/

structure StudioTaskSearchItem where
  serviceId : String
  taskId : String
  taskRef : StudioTaskRef
  serviceName : String
  environment : String
  latestStatus : Payload
  detailPath : String

structure SearchTaskMatch where
  service : Service
  item : StudioTaskSearchItem

section Search

variable (x : Text) (taskId : String) (includeErrors : Bool) (answers : Service → Answers)

def matchOf (service : Service) (latestStatus : Payload) : Except Failure SearchTaskMatch := do
  let resolvedTaskId := (payloadTaskId x latestStatus).getD taskId
  let taskRef ← match taskRefFromPayload latestStatus with
    | some taskRef => .ok taskRef
    | none => buildTaskRef service.serviceId resolvedTaskId none [] []
  pure ⟨service, ⟨service.serviceId, resolvedTaskId, taskRef, service.name, service.environment,
    latestStatus, "/studio/tasks/" ++ service.serviceId ++ "/" ++ resolvedTaskId⟩⟩

def searchService (service : Service) :
    Except Failure (Option SearchTaskMatch × Option FederatedError) :=
  match searchLatestStatus x service taskId (answers service) with
  | .error (.federation e) =>
    if e.code = "upstream_not_found" then .ok (none, none)
    else if !includeErrors then .ok (none, none)
    else .ok (none, some e.toModel)
  | .error .other => .error .other
  | .ok none => .ok (none, none)
  | .ok (some latestStatus) => do
    let found ← matchOf x taskId service latestStatus
    pure (some found, none)

/-- `_find_task_matches`. -/
def findTaskMatches (services : List Service) :
    Except Failure (List SearchTaskMatch × List FederatedError) := do
  let results ← services.mapM (searchService x (strip taskId) includeErrors answers)
  pure (results.filterMap Prod.fst, results.filterMap Prod.snd)

end Search

/-! ## The details of a task -/

structure TaskDetailBundle where
  service : Service
  taskId : String
  taskRef : StudioTaskRef
  latestStatus : Option Payload
  history : Option Payload
  dlqMessages : Option Payload
  executionGraph : Option Payload
  errors : List FederatedError

section Detail

variable (x : Text)

def historyEvents (history : Option Payload) : List Payload :=
  match history.bind (·.lookup "events") with
  | some (.list events) => events.filterMap fun
    | .dict event => some event
    | _ => none
  | _ => []

/-- The nodes of a graph that was normalised have become a list. -/
def graphNodes (graph : Option Payload) : List Payload :=
  match graph.bind (·.lookup "nodes") with
  | some (.list nodes) => nodes.filterMap fun
    | .dict node => some node
    | _ => none
  | _ => []

def graphRelatedTaskIds (graph : Option Payload) : List String :=
  match graph.bind (·.lookup "related_task_ids") with
  | some (.list related) => (related.filterMap fun v => normalizeString x (some v)).eraseDups
  | _ => []

def workflowLineageValues (graph : Option Payload) : List String :=
  ((graphNodes graph).filterMap fun node =>
    if fieldText x node "kind" ≠ "workflow_message" then none
    else match node.lookup "annotations" with
      | some (.dict annotations) => normalizeString x (annotations.lookup "correlation_id")
      | _ => none).eraseDups

def firstDistinctString (values : List String) (exclude : String) : Option String :=
  (values.filterMap fun value => normalizeString x (some (.str value))).find? fun value =>
    some value ≠ normalizeString x (some (.str exclude))

/-- `_build_primary_task_ref`. The parents of a latest status or of a node count only if it has a
correlation. -/
def buildPrimaryTaskRef (service : Service) (taskId : String)
    (latestStatus history graph : Option Payload) : Except Failure StudioTaskRef := do
  let latest := ((latestStatus.bind taskRefFromPayload).filter (·.correlationId.isSome)).toList
  let events := ((historyEvents history).filterMap taskRefFromPayload).filter (·.taskId = taskId)
  let nodes := (graphNodes graph).filterMap fun node => (taskRefFromPayload node).map (node, ·)
  let own := (nodes.map Prod.snd).filter fun ref => ref.taskId = taskId ∧ ref.correlationId.isSome
  let children := nodes.filter fun entry =>
    entry.2.taskId ≠ taskId ∧ fieldText x entry.1 "kind" = "aggregation_child"
  let related ← (graphRelatedTaskIds x graph).mapM (buildTaskPointer service.serviceId)
  let aggregated ← children.mapM fun entry => buildTaskPointer service.serviceId entry.2.taskId
  let refs := latest ++ events ++ own
  buildTaskRef service.serviceId taskId
    (firstDistinctString x (refs.filterMap (·.correlationId)) taskId)
    (refs.flatMap (·.parentRefs)) (related ++ aggregated)

/-- `_capture`: an error of the federation becomes a value. -/
def capture : Except Failure Payload → Except Failure (Except StudioFederationError Payload)
  | .ok payload => .ok (.ok payload)
  | .error (.federation e) => .ok (.error e)
  | .error .other => .error .other

def errorModel : Except StudioFederationError Payload → List FederatedError
  | .ok _ => []
  | .error e => [e.toModel]

/-- The latest status of a bundle, read from the history where there is no route for it. -/
def bundleStatus (service : Service) (taskId : String)
    (latest history : Except StudioFederationError Payload) :
    Except Failure (Option Payload × List FederatedError) :=
  match latest, history with
  | .ok payload, _ => .ok (some payload, [])
  | .error e, .ok (entry :: rest) =>
    if e.code ≠ "unsupported_route" then .ok (none, [e.toModel])
    else match List.lookup "events" (entry :: rest) with
      | some (.list events) =>
        if events.isEmpty then .ok (none, [e.toModel])
        else do
          let payload ← statusOfHistory x service taskId events
          pure (some payload, [])
      | _ => .ok (none, [e.toModel])
  | .error e, _ => .ok (none, [e.toModel])

def buildTaskDetailBundle (service : Service) (taskId : String) (reads : Reads) :
    Except Failure TaskDetailBundle := do
  let taskId := strip taskId
  let latest ← capture reads.status
  let history ← capture reads.history
  let dlq ← capture reads.dlqMessages
  let graph ← capture reads.executionGraph
  let (latestStatus, errors) ← bundleStatus x service taskId latest history
  let taskRef ← buildPrimaryTaskRef x service taskId latestStatus history.toOption graph.toOption
  pure {
    service
    taskId
    taskRef
    latestStatus := latestStatus.map fun d => Fields.update d [("task_ref", taskRef.modelDump)]
    history := history.toOption.map fun d =>
      Fields.update d [("task_ref", taskRef.modelDump), ("task_id", .str taskId)]
    dlqMessages := dlq.toOption
    executionGraph := graph.toOption.map fun d =>
      Fields.update d [("task_ref", taskRef.modelDump)]
    errors := errors ++ errorModel history ++ errorModel dlq ++ errorModel graph }

end Detail

/-! ## Joins -/

inductive JoinMode where
  | none
  | correlation
  | lineage
  | all
  deriving DecidableEq, Repr

def JoinMode.includesCorrelation (join : JoinMode) : Bool := join ∈ [.correlation, .all]

def JoinMode.includesLineage (join : JoinMode) : Bool := join ∈ [.lineage, .all]

inductive JoinKind where
  | correlationId
  | parentTaskId
  | workflowLineage
  deriving DecidableEq, Repr

def JoinKind.text : JoinKind → String
  | .correlationId => "correlation_id"
  | .parentTaskId => "parent_task_id"
  | .workflowLineage => "workflow_lineage"

structure StudioJoinWarning where
  code : String
  detail : String
  joinKind : Option JoinKind
  matchedValue : Option String
  deriving DecidableEq, Repr

/-- What is looked up: a value of a task, by which it may be joined. -/
structure JoinCandidate where
  source : StudioTaskRef
  joinKind : JoinKind
  matchedValue : String
  deriving DecidableEq, Repr

section Joins

variable (x : Text)

/-- `_collect_join_candidates`. -/
def collectJoinCandidates (taskRef : StudioTaskRef) (graph : Option Payload) (join : JoinMode) :
    List JoinCandidate :=
  let correlations := if join.includesCorrelation then
      (taskRef.correlationId.toList.filter fun value => value ≠ "" ∧ value ≠ taskRef.taskId).map
        (JoinKind.correlationId, ·)
    else []
  let lineage := if join.includesLineage then
      (taskRef.parentRefs ++ taskRef.childRefs).map (fun p => (JoinKind.parentTaskId, p.taskId)) ++
        (workflowLineageValues x graph).map (JoinKind.workflowLineage, ·)
    else []
  ((correlations ++ lineage).filterMap fun (joinKind, value) =>
    ((normalizeString x (some (.str value))).filter (· ≠ taskRef.taskId)).map
      (⟨taskRef, joinKind, ·⟩)).eraseDups

variable (services : List Service)

def incompleteWarning (joinKind : JoinKind) (matchedValue : String) : StudioJoinWarning where
  code := "incomplete_join_candidate_scan"
  detail := "Skipped " ++ joinKind.text ++ " join for '" ++ matchedValue ++
    "' because one or more services could not be scanned."
  joinKind := some joinKind
  matchedValue := some matchedValue

def ambiguousWarning (joinKind : JoinKind) (matchedValue : String) : StudioJoinWarning where
  code := "ambiguous_join_candidate"
  detail := "Skipped " ++ joinKind.text ++ " join for '" ++ matchedValue ++
    "' because it matched multiple services."
  joinKind := some joinKind
  matchedValue := some matchedValue

def resolveJoinCandidate (candidate : JoinCandidate) (answers : Service → Answers) :
    Except Failure (Option SearchTaskMatch × Option StudioJoinWarning) := do
  let (candidateMatches, candidateErrors) ←
    findTaskMatches x candidate.matchedValue false answers services
  let crossServiceMatches := candidateMatches.filter fun found =>
    found.item.serviceId ≠ candidate.source.serviceId ∧
      (found.item.serviceId, found.item.taskId) ≠
        (candidate.source.serviceId, candidate.source.taskId)
  if !candidateErrors.isEmpty then
    pure (none, some (incompleteWarning candidate.joinKind candidate.matchedValue))
  else if 1 < crossServiceMatches.length then
    pure (none, some (ambiguousWarning candidate.joinKind candidate.matchedValue))
  else pure (crossServiceMatches.head?, none)

/-- A task that was joined, and by what. -/
structure Joined where
  found : SearchTaskMatch
  joinKind : JoinKind
  matchedValue : String

def Joined.key (j : Joined) : String × String × JoinKind × String :=
  (j.found.item.serviceId, j.found.item.taskId, j.joinKind, j.matchedValue)

/-- What the loop over the candidates holds. -/
structure Joins where
  joined : List Joined := []
  warnings : List StudioJoinWarning := []

/-- `seen` holds the keys of what is joined. -/
def Joins.add (joins : Joins) (candidate : JoinCandidate) :
    Option SearchTaskMatch × Option StudioJoinWarning → Joins
  | (found, warning) =>
    let warned := { joins with warnings := joins.warnings ++ warning.toList }
    match found with
    | none => warned
    | some found =>
      let joined : Joined := ⟨found, candidate.joinKind, candidate.matchedValue⟩
      if joined.key ∈ joins.joined.map Joined.key then warned
      else { warned with joined := joins.joined ++ [joined] }

/-- The loop over candidates; `scans n` is what the services answer for the `n`-th of them. -/
def buildJoins (scans : Nat → Service → Answers) (candidates : List JoinCandidate) :
    Except Failure Joins := do
  let joins ← candidates.zipIdx.foldlM (fun joins (candidate, n) => do
    let resolved ← resolveJoinCandidate x services candidate (scans n)
    pure (joins.add candidate resolved)) ({} : Joins)
  pure { joins with warnings := joins.warnings.eraseDups }

def buildDetailJoins (bundle : TaskDetailBundle) (join : JoinMode)
    (scans : Nat → Service → Answers) : Except Failure Joins :=
  buildJoins x services scans (collectJoinCandidates x bundle.taskRef bundle.executionGraph join)

/-- `reads` is what each service answers to the requests for the details of its match. -/
def buildSearchJoins (exactMatches : List SearchTaskMatch) (join : JoinMode)
    (reads : Service → Reads) (scans : Nat → Service → Answers) : Except Failure Joins := do
  let bundles ← exactMatches.mapM fun found =>
    buildTaskDetailBundle x found.service found.item.taskId (reads found.service)
  buildJoins x services scans (bundles.flatMap fun bundle =>
    collectJoinCandidates x bundle.taskRef bundle.executionGraph join)

structure StudioTaskJoin where
  taskRef : StudioTaskRef
  joinKind : JoinKind
  matchedValue : String

structure StudioTaskDetailResponse where
  bundle : TaskDetailBundle
  joinedRefs : List StudioTaskJoin
  joinWarnings : List StudioJoinWarning

def listQueryableServices : List Service := services.filter (!·.disabled)

/-- `get_task_detail` of a service that may be asked. -/
def getTaskDetail (service : Service) (taskId : String) (join : JoinMode) (reads : Reads)
    (scans : Nat → Service → Answers) : Except Failure StudioTaskDetailResponse := do
  let bundle ← buildTaskDetailBundle x service taskId reads
  if join = .none then pure ⟨bundle, [], []⟩
  else do
    let joins ← buildDetailJoins x (listQueryableServices services) bundle join scans
    pure ⟨bundle, joins.joined.map fun j => ⟨j.found.item.taskRef, j.joinKind, j.matchedValue⟩,
      joins.warnings⟩

structure StudioJoinedTaskSearchItem where
  item : StudioTaskSearchItem
  joinKind : JoinKind
  matchedValue : String

structure StudioTaskSearchResponse where
  items : List StudioTaskSearchItem
  joinedItems : List StudioJoinedTaskSearchItem
  joinWarnings : List StudioJoinWarning
  errors : List FederatedError
  scannedServices : List String

/-- Where an item stands in an answer. -/
def StudioTaskSearchItem.place (lower : String → String) (item : StudioTaskSearchItem) :
    String ×ₗ String ×ₗ String :=
  toLex (item.environment, toLex (lower item.serviceName, item.serviceId))

/-- `search_tasks`; `lower` is `str.lower`. -/
def searchTasks (lower : String → String) (taskId : String) (join : JoinMode)
    (answers : Service → Answers) (reads : Service → Reads) (scans : Nat → Service → Answers) :
    Except Failure StudioTaskSearchResponse := do
  let queryable := listQueryableServices services
  let (exactMatches, errors) ← findTaskMatches x (strip taskId) true answers queryable
  let joins ← if join = .none then pure {}
    else buildSearchJoins x queryable exactMatches join reads scans
  let joinedItems := joins.joined.map fun j => ⟨j.found.item, j.joinKind, j.matchedValue⟩
  pure {
    items := (exactMatches.map (·.item)).mergeSort fun a b => a.place lower ≤ b.place lower
    joinedItems := joinedItems.mergeSort fun a b => a.item.place lower ≤ b.item.place lower
    joinWarnings := joins.warnings
    errors
    scannedServices := queryable.map (·.serviceId) }

end Joins

end Relayna.Studio.Federation
