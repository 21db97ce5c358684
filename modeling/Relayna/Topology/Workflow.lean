import Relayna.Contracts.Transport
import Relayna.Foundation.Failing
import Mathlib.Data.List.Nodup
import Mathlib.Data.List.Sort

/-!
# `SharedStatusWorkflowTopology`

The stages of a workflow, the checks of the constructor and the lookups by name. The constructor
compares names after `strip()`; the lookups compare them as they are stored. `Valid` is what the
constructor makes sure of, and `Closed` that every name another part of the topology refers to
can be looked up.
-/
namespace Relayna.Topology

open Python Contracts Failing

inductive TopologyError where
  | valueError (text : String)
  | keyError (text : String)
  | conversion (e : ConversionError)
  deriving DecidableEq, Repr

structure WorkflowStage where
  name : String
  queue : String
  bindingKeys : List String
  publishRoutingKey : String
  slaMs : Option Int := none
  acceptedActions : List ActionSchema := []
  producedActions : List ActionSchema := []
  allowedNextStages : List String := []
  terminal : Bool := false
  timeoutSeconds : Option Python.Float := none
  maxRetries : Option Int := none
  retryDelayMs : Option Int := none
  maxInflight : Option Int := none
  dedupKeyFields : List String := []
  queueArgumentsOverrides : Fields Value := []
  queueKwargs : Fields Value := []

structure WorkflowEntryRoute where
  name : String
  routingKey : String
  targetStage : String

structure SharedStatusWorkflowTopology where
  stages : List WorkflowStage
  entryRoutes : List WorkflowEntryRoute := []
  deadLetterExchange : Option String := none
  workflowConsumerTimeoutMs : Option Int := none
  workflowSingleActiveConsumer : Option Bool := none
  workflowMaxPriority : Option Int := none
  workflowQueueType : Option String := none
  workflowQueueArgumentsOverrides : Fields Value := []
  workflowQueueKwargs : Fields Value := []

/-- `if condition: raise ValueError(text)`. -/
def refuseIf (condition : Prop) [Decidable condition] (text : String) :
    Except TopologyError Unit :=
  if condition then .error (.valueError text) else .ok ()

theorem refuseIf_bind_ok {α : Type} {condition : Prop} [Decidable condition] {text : String}
    {next : Unit → Except TopologyError α} {a : α} :
    (refuseIf condition text >>= next) = .ok a ↔ ¬condition ∧ next () = .ok a := by
  unfold refuseIf
  split <;> simp_all [bind, Except.bind]

theorem refuseIf_ok {condition : Prop} [Decidable condition] {text : String} :
    refuseIf condition text = .ok () ↔ ¬condition := by
  unfold refuseIf
  split <;> simp_all

/-- `tuple(item.strip() for item in items if str(item).strip())`. -/
def strippedItems (items : List String) : List String :=
  (items.map strip).filter (· ≠ "")

/-- `float(value) <= 0`. -/
def nonPositive : Python.Float → Bool
  | .nan => false
  | .inf negative => negative
  | .finite f => f.mantissa ≤ 0

/-- `_validate_action_schema_collection`. -/
def validateActionSchemaCollection (actions : List ActionSchema) (stageName fieldName : String) :
    Except TopologyError Unit := do
  let names := actions.map fun action => strip action.action
  refuseIf ("" ∈ names)
    s!"Workflow stage '{stageName}' {fieldName} must define non-empty action names"
  refuseIf (¬names.Nodup)
    s!"Workflow stage '{stageName}' {fieldName} must not define duplicate action names"

/-- `stage_names` and `queue_names` of the first loop of `__post_init__`. -/
structure Seen where
  names : List String := []
  queues : List String := []

/-- One round of the first loop. -/
def checkStage (seen : Seen) (stage : WorkflowStage) : Except TopologyError Seen := do
  let stageName := strip stage.name
  refuseIf (stageName = "") "Workflow stage names must not be empty"
  refuseIf (stageName ∈ seen.names) s!"Duplicate workflow stage name '{stageName}'"
  let queueName := strip stage.queue
  refuseIf (queueName = "") s!"Workflow stage '{stageName}' must define a queue name"
  refuseIf (queueName ∈ seen.queues) s!"Duplicate workflow queue name '{queueName}'"
  refuseIf (strippedItems stage.bindingKeys = [])
    s!"Workflow stage '{stageName}' must define at least one binding key"
  refuseIf (strip stage.publishRoutingKey = "")
    s!"Workflow stage '{stageName}' must define publish_routing_key"
  refuseIf (stage.slaMs.any (· < 1)) s!"Workflow stage '{stageName}' must define sla_ms >= 1"
  refuseIf (stage.timeoutSeconds.any nonPositive)
    s!"Workflow stage '{stageName}' must define timeout_seconds > 0"
  refuseIf (stage.maxRetries.any (· < 0))
    s!"Workflow stage '{stageName}' must define max_retries >= 0"
  refuseIf (stage.retryDelayMs.any (· ≤ 0))
    s!"Workflow stage '{stageName}' must define retry_delay_ms > 0"
  refuseIf (stage.maxInflight.any (· < 1))
    s!"Workflow stage '{stageName}' must define max_inflight >= 1"
  refuseIf (¬(strippedItems stage.dedupKeyFields).Nodup)
    s!"Workflow stage '{stageName}' dedup_key_fields must be unique"
  refuseIf ((strippedItems stage.dedupKeyFields).length ≠ stage.dedupKeyFields.length)
    s!"Workflow stage '{stageName}' dedup_key_fields must not be empty"
  validateActionSchemaCollection stage.acceptedActions stageName "accepted_actions"
  validateActionSchemaCollection stage.producedActions stageName "produced_actions"
  return ⟨seen.names ++ [stageName], seen.queues ++ [queueName]⟩

/-- One round of the second loop, over the route names seen so far. -/
def checkRoute (stageNames routeNames : List String) (route : WorkflowEntryRoute) :
    Except TopologyError (List String) := do
  let routeName := strip route.name
  refuseIf (routeName = "") "Workflow entry route names must not be empty"
  refuseIf (routeName ∈ routeNames) s!"Duplicate workflow entry route '{routeName}'"
  refuseIf (strip route.routingKey = "")
    s!"Workflow entry route '{routeName}' must define routing_key"
  let targetStage := route.targetStage
  refuseIf (targetStage ∉ stageNames)
    s!"Workflow entry route '{routeName}' references unknown target stage '{targetStage}'"
  return routeNames ++ [routeName]

/-- One round of the third loop. -/
def checkTransitions (stageNames : List String) (stage : WorkflowStage) :
    Except TopologyError Unit := do
  let stageName := strip stage.name
  let allowedNextStages := strippedItems stage.allowedNextStages
  refuseIf (¬allowedNextStages.Nodup)
    s!"Workflow stage '{stageName}' allowed_next_stages must be unique"
  allowedNextStages.forM fun destination => refuseIf (destination ∉ stageNames)
    s!"Workflow stage '{stageName}' references unknown downstream stage '{destination}'"
  refuseIf (stage.terminal ∧ allowedNextStages ≠ [])
    s!"Workflow stage '{stageName}' cannot be terminal and define allowed_next_stages"
  refuseIf (stage.terminal ∧ ¬stage.producedActions.isEmpty)
    s!"Workflow stage '{stageName}' cannot be terminal and define produced_actions"

/-- `raise_on_argument_conflicts`. -/
def raiseOnArgumentConflicts (queueFamily leftName : String) (left : Fields Value)
    (rightName : String) (right : Fields Value) : Except TopologyError Unit :=
  let duplicateKeys := ((left.map (·.1)).filter right.has).insertionSort (· ≤ ·)
  let duplicates := ", ".intercalate duplicateKeys
  refuseIf (duplicateKeys ≠ [])
    (s!"Duplicate {queueFamily} queue arguments configured in {leftName} and {rightName}: " ++
      duplicates)

/-- `merge_queue_arguments`. -/
def mergeQueueArguments (queueFamily : String) (builtins overrides kwargs : Fields Value) :
    Except TopologyError (Fields Value) := do
  raiseOnArgumentConflicts queueFamily "built-in fields" builtins "overrides" overrides
  raiseOnArgumentConflicts queueFamily "built-in fields" builtins "kwargs" kwargs
  raiseOnArgumentConflicts queueFamily "overrides" overrides "kwargs" kwargs
  return (builtins.update overrides).update kwargs

/-- `validate_queue_max_priority`. -/
def validateQueueMaxPriority (value : Value) (label : String) : Except TopologyError Int := do
  let priority ← value.toInt.mapError .conversion
  refuseIf (priority < 1 ∨ priority > 255) s!"{label}_max_priority must be between 1 and 255"
  return priority

/-- `with_validated_queue_max_priority`. -/
def withValidatedQueueMaxPriority (arguments : Fields Value) (label : String) :
    Except TopologyError (Fields Value) :=
  match arguments.lookup "x-max-priority" with
  | none | some .none => .ok arguments
  | some maxPriority => do
    let priority ← validateQueueMaxPriority maxPriority label
    return arguments.set "x-max-priority" (.int priority)

namespace SharedStatusWorkflowTopology

variable (t : SharedStatusWorkflowTopology)

/-- `__post_init__`. -/
def postInit : Except TopologyError Unit := do
  refuseIf (t.stages.isEmpty) "At least one workflow stage must be configured"
  let seen ← t.stages.foldlM checkStage {}
  let _ ← t.entryRoutes.foldlM (checkRoute seen.names) []
  t.stages.forM (checkTransitions seen.names)

/-- `_stage`, which is `workflow_stage`. -/
def workflowStage (stage : String) : Except TopologyError WorkflowStage :=
  match t.stages.find? (·.name == stage) with
  | some item => .ok item
  | none => .error (.keyError s!"Unknown workflow stage '{stage}'")

/-- `_entry_route`. -/
def entryRoute (route : String) : Except TopologyError WorkflowEntryRoute :=
  match t.entryRoutes.find? (·.name == route) with
  | some item => .ok item
  | none => .error (.keyError s!"Unknown workflow entry route '{route}'")

def workflowStageNames : List String := t.stages.map (·.name)

def workflowBindingKeys (stage : String) : Except TopologyError (List String) := do
  let resolved ← t.workflowStage stage
  return strippedItems resolved.bindingKeys

/-- The curated arguments, in the order they are set. -/
def builtinArguments : Except TopologyError (Fields Value) := do
  let maxPriority ← t.workflowMaxPriority.mapM fun priority =>
    validateQueueMaxPriority (.int priority) "workflow"
  return ((t.deadLetterExchange.filter (· ≠ "")).map fun s =>
      ("x-dead-letter-exchange", Value.str s)).toList ++
    (t.workflowConsumerTimeoutMs.map fun n => ("x-consumer-timeout", Value.int n)).toList ++
    (t.workflowSingleActiveConsumer.map fun b =>
      ("x-single-active-consumer", Value.bool b)).toList ++
    (maxPriority.map fun n => ("x-max-priority", Value.int n)).toList ++
    (t.workflowQueueType.map fun s => ("x-queue-type", Value.str s)).toList

def workflowQueueArguments (stage : String) : Except TopologyError (Fields Value) := do
  let resolved ← t.workflowStage stage
  let builtins ← t.builtinArguments
  raiseOnArgumentConflicts "workflow" "global overrides" t.workflowQueueArgumentsOverrides
    "stage overrides" resolved.queueArgumentsOverrides
  raiseOnArgumentConflicts "workflow" "global kwargs" t.workflowQueueKwargs
    "stage kwargs" resolved.queueKwargs
  let merged ← mergeQueueArguments "workflow" builtins
    (t.workflowQueueArgumentsOverrides.update resolved.queueArgumentsOverrides)
    (t.workflowQueueKwargs.update resolved.queueKwargs)
  withValidatedQueueMaxPriority merged "workflow"

def workflowPublishRoutingKey (stage : String) : Except TopologyError String := do
  let resolved ← t.workflowStage stage
  return strip resolved.publishRoutingKey

def workflowEntryRoutingKey (route : String) : Except TopologyError String := do
  let resolved ← t.entryRoute route
  return strip resolved.routingKey

def workflowEntryTargetStage (route : String) : Except TopologyError String := do
  let resolved ← t.entryRoute route
  return resolved.targetStage

end SharedStatusWorkflowTopology

/-! ## What the constructor accepts -/

section Loops

variable {seen seen' : Seen} {stage : WorkflowStage} {stages : List WorkflowStage}
  {route : WorkflowEntryRoute} {routes : List WorkflowEntryRoute}
  {stageNames routeNames routeNames' : List String}

theorem checkStage_ok (h : checkStage seen stage = .ok seen') :
    strip stage.name ≠ "" ∧ strip stage.name ∉ seen.names ∧ strip stage.queue ∉ seen.queues ∧
      seen' = ⟨seen.names ++ [strip stage.name], seen.queues ++ [strip stage.queue]⟩ := by
  simp only [checkStage, refuseIf_bind_ok] at h
  obtain ⟨named, name, -, queue, -, -, -, -, -, -, -, -, -, h⟩ := h
  obtain ⟨-, -, h⟩ := bind_ok.mp h
  obtain ⟨-, -, h⟩ := bind_ok.mp h
  exact ⟨named, name, queue, (Except.ok.inj h).symm⟩

theorem checkRoute_ok (h : checkRoute stageNames routeNames route = .ok routeNames') :
    strip route.name ∉ routeNames ∧ route.targetStage ∈ stageNames ∧
      routeNames' = routeNames ++ [strip route.name] := by
  simp only [checkRoute, refuseIf_bind_ok] at h
  obtain ⟨-, name, -, target, h⟩ := h
  exact ⟨name, not_not.mp target, (Except.ok.inj h).symm⟩

theorem checkTransitions_ok (h : checkTransitions stageNames stage = .ok ()) :
    ∀ destination ∈ strippedItems stage.allowedNextStages, destination ∈ stageNames := by
  simp only [checkTransitions, refuseIf_bind_ok] at h
  obtain ⟨_, known, -⟩ := bind_ok.mp h.2
  intro destination member
  exact not_not.mp (refuseIf_ok.mp (forM_ok_iff.mp known destination member))

/-- The two sets of the first loop hold the stripped names and queues, each once. -/
structure Seen.Of (stages : List WorkflowStage) (seen : Seen) : Prop where
  names : seen.names = stages.map fun stage => strip stage.name
  named : ∀ stage ∈ stages, strip stage.name ≠ ""
  namesOnce : seen.names.Nodup
  queues : seen.queues = stages.map fun stage => strip stage.queue
  queuesOnce : seen.queues.Nodup

theorem nodup_concat {l : List String} {a : String} (once : l.Nodup) (fresh : a ∉ l) :
    (l ++ [a]).Nodup :=
  List.nodup_append_comm.mp (List.nodup_cons.mpr ⟨fresh, once⟩)

theorem checkStages_ok (h : stages.foldlM checkStage {} = .ok seen') : seen'.Of stages := by
  refine foldlM_ok ?_ ⟨rfl, by simp, List.nodup_nil, rfl, List.nodup_nil⟩ h
  intro done seen stage seen' of h
  obtain ⟨named, name, queue, rfl⟩ := checkStage_ok h
  refine ⟨by simp [of.names], ?_, nodup_concat of.namesOnce name, by simp [of.queues],
    nodup_concat of.queuesOnce queue⟩
  intro stage member
  obtain member | member := List.mem_append.mp member
  · exact of.named stage member
  · rwa [List.mem_singleton.mp member]

/-- The route names of the second loop, each once, and the targets it has found. -/
structure RoutesChecked (stageNames : List String) (routes : List WorkflowEntryRoute)
    (routeNames : List String) : Prop where
  names : routeNames = routes.map fun route => strip route.name
  once : routeNames.Nodup
  targets : ∀ route ∈ routes, route.targetStage ∈ stageNames

theorem checkRoutes_ok (h : routes.foldlM (checkRoute stageNames) [] = .ok routeNames') :
    RoutesChecked stageNames routes routeNames' := by
  refine foldlM_ok ?_ ⟨rfl, List.nodup_nil, by simp⟩ h
  intro done names route names' of h
  obtain ⟨name, target, rfl⟩ := checkRoute_ok h
  refine ⟨by simp [of.names], nodup_concat of.once name, ?_⟩
  intro route member
  obtain member | member := List.mem_append.mp member
  · exact of.targets route member
  · rwa [List.mem_singleton.mp member]

end Loops

namespace SharedStatusWorkflowTopology

variable {t : SharedStatusWorkflowTopology} {s : WorkflowStage} {route : WorkflowEntryRoute}
  {name : String}

/-- What the constructor makes sure of for the lookups. -/
structure Valid (t : SharedStatusWorkflowTopology) : Prop where
  named : ∀ stage ∈ t.stages, strip stage.name ≠ ""
  names : (t.stages.map fun stage => strip stage.name).Nodup
  queues : (t.stages.map fun stage => strip stage.queue).Nodup
  routes : (t.entryRoutes.map fun route => strip route.name).Nodup
  targets : ∀ route ∈ t.entryRoutes, ∃ stage ∈ t.stages, strip stage.name = route.targetStage
  transitions : ∀ stage ∈ t.stages, ∀ next ∈ stage.allowedNextStages, strip next ≠ "" →
    ∃ destination ∈ t.stages, strip destination.name = strip next

theorem valid_of_postInit (h : t.postInit = .ok ()) : t.Valid := by
  simp only [postInit, refuseIf_bind_ok] at h
  obtain ⟨seen, first, h⟩ := bind_ok.mp h.2
  obtain ⟨routeNames, second, third⟩ := bind_ok.mp h
  have stages := checkStages_ok first
  have routes := checkRoutes_ok second
  rw [stages.names] at routes third
  refine ⟨stages.named, stages.names ▸ stages.namesOnce, stages.queues ▸ stages.queuesOnce,
    routes.names ▸ routes.once, ?_, ?_⟩
  · intro route member
    exact List.mem_map.mp (routes.targets route member)
  · intro stage member next listed nonBlank
    refine List.mem_map.mp (checkTransitions_ok (forM_ok_iff.mp third stage member) _ ?_)
    exact List.mem_filter.mpr ⟨List.mem_map_of_mem listed, by simpa using nonBlank⟩

theorem workflowStage_ok : t.workflowStage name = .ok s ↔
    t.stages.find? (·.name == name) = some s := by
  unfold workflowStage
  cases t.stages.find? (·.name == name) <;> simp

namespace Valid

variable (valid : t.Valid)
include valid

/-- Stages are told apart by their stripped names. -/
theorem eq_of_strip {a b : WorkflowStage} (ha : a ∈ t.stages) (hb : b ∈ t.stages)
    (h : strip a.name = strip b.name) : a = b :=
  List.inj_on_of_nodup_map valid.names ha hb h

theorem workflowStage_iff : t.workflowStage name = .ok s ↔ s ∈ t.stages ∧ s.name = name := by
  rw [workflowStage_ok]
  constructor
  · intro found
    exact ⟨List.mem_of_find?_eq_some found, by simpa using List.find?_some found⟩
  · rintro ⟨member, rfl⟩
    cases found : t.stages.find? (·.name == s.name) with
    | none =>
      have := List.find?_eq_none.mp found s member
      simp at this
    | some other =>
      have same : other.name = s.name := by simpa using List.find?_some found
      rw [valid.eq_of_strip (List.mem_of_find?_eq_some found) member (by rw [same])]

theorem entryRoute_self (member : route ∈ t.entryRoutes) :
    t.entryRoute route.name = .ok route := by
  unfold entryRoute
  cases found : t.entryRoutes.find? (·.name == route.name) with
  | none =>
    have := List.find?_eq_none.mp found route member
    simp at this
  | some other =>
    have same : other.name = route.name := by simpa using List.find?_some found
    have := List.inj_on_of_nodup_map valid.routes (List.mem_of_find?_eq_some found) member
      (by rw [same])
    rw [this]

end Valid

/-- Every name the topology refers to can be looked up, and finds what the constructor has
matched it with; stages share neither queues nor names. -/
structure Closed (t : SharedStatusWorkflowTopology) : Prop where
  names : ∀ name ∈ t.workflowStageNames, ∃ stage ∈ t.stages,
    stage.name = name ∧ t.workflowStage name = .ok stage
  transitions : ∀ stage ∈ t.stages, ∀ next ∈ stage.allowedNextStages, ∃ destination ∈ t.stages,
    strip destination.name = strip next ∧ t.workflowStage next = .ok destination
  targets : ∀ route ∈ t.entryRoutes, ∃ stage ∈ t.stages,
    strip stage.name = route.targetStage ∧ t.workflowStage route.targetStage = .ok stage
  routes : ∀ route ∈ t.entryRoutes, t.entryRoute route.name = .ok route
  apart : t.stages.Pairwise fun a b =>
    a.queue ≠ b.queue ∧ strip a.queue ≠ strip b.queue ∧ strip a.name ≠ strip b.name

/-- No entry of `allowed_next_stages` is blank or padded otherwise than the stage it names, and
no stage with a padded name is the target of an entry route. -/
structure Unpadded (t : SharedStatusWorkflowTopology) : Prop where
  transitions : ∀ stage ∈ t.stages, ∀ next ∈ stage.allowedNextStages, strip next ≠ "" ∧
    ∀ destination ∈ t.stages, strip destination.name = strip next → destination.name = next
  targets : ∀ stage ∈ t.stages, strip stage.name ≠ stage.name →
    ∀ route ∈ t.entryRoutes, route.targetStage ≠ strip stage.name

/-- An accepted topology is closed exactly if names are padded nowhere, or everywhere alike. -/
theorem closed_iff (accepted : t.postInit = .ok ()) : t.Closed ↔ t.Unpadded := by
  have valid := valid_of_postInit accepted
  constructor
  · intro closed
    refine ⟨fun stage member next listed => ?_, fun stage member padded route listed target => ?_⟩
    · obtain ⟨destination, known, same, found⟩ := closed.transitions stage member next listed
      have spelled := (valid.workflowStage_iff.mp found).2
      refine ⟨?_, fun other known' same' => ?_⟩
      · exact same ▸ valid.named destination known
      · rw [valid.eq_of_strip known' known (same'.trans same.symm), spelled]
    · obtain ⟨other, known, same, found⟩ := closed.targets route listed
      have spelled := (valid.workflowStage_iff.mp found).2
      obtain rfl := valid.eq_of_strip known member (same.trans target)
      exact padded (target.symm.trans spelled.symm)
  · intro unpadded
    refine ⟨?_, ?_, ?_, fun route member => valid.entryRoute_self member, ?_⟩
    · intro name listed
      obtain ⟨stage, member, rfl⟩ := List.mem_map.mp listed
      exact ⟨stage, member, rfl, valid.workflowStage_iff.mpr ⟨member, rfl⟩⟩
    · intro stage member next listed
      obtain ⟨nonBlank, spelled⟩ := unpadded.transitions stage member next listed
      obtain ⟨destination, known, same⟩ := valid.transitions stage member next listed nonBlank
      exact ⟨destination, known, same,
        valid.workflowStage_iff.mpr ⟨known, spelled destination known same⟩⟩
    · intro route listed
      obtain ⟨stage, member, same⟩ := valid.targets route listed
      have spelled : strip stage.name = stage.name := by
        by_contra padded
        exact unpadded.targets stage member padded route listed same.symm
      exact ⟨stage, member, same, valid.workflowStage_iff.mpr ⟨member, spelled.symm.trans same⟩⟩
    · have names := List.pairwise_map.mp valid.names
      have queues := List.pairwise_map.mp valid.queues
      refine (names.and queues).imp ?_
      rintro a b ⟨name, queue⟩
      exact ⟨fun same => queue (by rw [same]), queue, name⟩

/-- Two stages, the second named `second`; the first may hand over to `next`. -/
def twoStages (second next target : String) : SharedStatusWorkflowTopology where
  stages := [
    { name := "planner", queue := "planner.queue", bindingKeys := ["planner.in"],
      publishRoutingKey := "planner.in", allowedNextStages := [next] },
    { name := second, queue := "writer.queue", bindingKeys := ["writer.in"],
      publishRoutingKey := "writer.in" }]
  entryRoutes := [⟨"entry", "writer.in", target⟩]

theorem closed_iff_plain :
    (twoStages "writer" "writer" "writer").Closed ↔
      (twoStages "writer" "writer" "writer").Unpadded :=
  closed_iff rfl

/-- The second stage's name ends in a blank; the constructor matches the route with it, the
lookup does not. -/
theorem padded_not_closed :
    (twoStages "writer " "writer " "writer").postInit = .ok () ∧
      (twoStages "writer " "writer " "writer").workflowStage "writer" =
        .error (.keyError "Unknown workflow stage 'writer'") ∧
      ¬(twoStages "writer " "writer " "writer").Closed := by
  refine ⟨rfl, rfl, fun closed => ?_⟩
  obtain ⟨stage, -, -, found⟩ := closed.targets ⟨"entry", "writer.in", "writer"⟩
    (by simp [twoStages])
  cases found

end SharedStatusWorkflowTopology

end Relayna.Topology
