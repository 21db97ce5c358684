import Relayna.Consumer.Effects
import Relayna.Contracts.Workflow
import Relayna.Topology.Workflow

/-!
# Publishing to a workflow stage

`publish_workflow_message` prepares the payload once more, whoever has prepared it before, checks
it against the contracts of the stage it comes from and of the stage it goes to, and hands it to
the exchange. Every other way to publish to a stage ends here. The trace headers are left out.
-/
namespace Relayna.Topology

open Python Contracts

/-- What a publisher is told when nothing has been published. -/
inductive PublishError where
  | validation
  | topology (e : TopologyError)
  | contract (reason : String)
  | priority (text : String)
  | serialization (typeName text : String)
  deriving DecidableEq, Repr

/-- The `WorkflowContractError` of `_validate_action_contract`, raised. -/
def requireContract (actions : List ActionSchema) (action : Option String)
    (payload : Fields Value) : Except PublishError Unit :=
  match validateActionContract actions action payload with
  | none => .ok ()
  | some reason => .error (.contract reason)

namespace SharedStatusWorkflowTopology

variable (t : SharedStatusWorkflowTopology)

/-- What `validate_publish_contract` asks of the stage the message comes from. -/
def validateSource (sourceStage targetStage : String) (action : Option String)
    (payload : Fields Value) : Except PublishError Unit := do
  let source ← (t.workflowStage sourceStage).mapError .topology
  if source.terminal then .error (.contract "terminal_stage_handoff")
  else if source.allowedNextStages ≠ [] ∧ targetStage ∉ source.allowedNextStages then
    .error (.contract "forbidden_transition")
  else requireContract source.producedActions action payload

/-- `validate_publish_contract`. -/
def validatePublishContract (targetStage : String) (action : Option String)
    (payload : Fields Value) (sourceStage : Option String) : Except PublishError Unit := do
  let destination ← (t.workflowStage targetStage).mapError .topology
  sourceStage.forM fun sourceStage => t.validateSource sourceStage targetStage action payload
  requireContract destination.acceptedActions action payload

end SharedStatusWorkflowTopology

end Relayna.Topology

namespace Relayna.Rabbitmq

open Consumer Contracts Contracts.Workflow Failing Python Topology

/-- What `publish_workflow_message` is given. -/
inductive WorkflowPayload where
  | envelope (e : Envelope)
  | model (dumped : Fields Value)
  | mapping (fields : Fields Value)

structure WorkflowPublisher where
  codec : Codec
  lax : Lax
  aliasConfig : Option ContractAliasConfig
  topology : SharedStatusWorkflowTopology

/-- `workflow.get(key)` of a text field. -/
def textField (workflow : Fields Value) (key : String) : Option String :=
  match workflow.lookup key with
  | some (.str s) => some s
  | _ => none

/-- `str(workflow.get(key) or "").strip()`. -/
def strippedField (workflow : Fields Value) (key : String) : String :=
  strip ((textField workflow key).getD "")

/-- The payload, if it is a mapping. -/
def payloadField (workflow : Fields Value) : Fields Value :=
  match workflow.lookup "payload" with
  | some (.dict fields) => fields
  | _ => []

namespace WorkflowPublisher

variable (p : WorkflowPublisher)

/-- `as_transport_dict`. -/
def transport (e : Envelope) : Except PublishError (Fields Value) :=
  (p.lax.asTransportDict e).mapError fun e => .serialization e.1 e.2

/-- The dictionary `_prepare_workflow_payload` starts from. Only a mapping has its aliases
resolved. -/
def workflowDict : WorkflowPayload → Except PublishError (Fields Value)
  | .envelope e => p.transport e
  | .model dumped => .ok dumped
  | .mapping fields => .ok (normalizeContractAliases p.codec.text fields p.aliasConfig)

/-- `_prepare_workflow_payload`. -/
def prepareWorkflowPayload (fresh : Fresh) (payload : WorkflowPayload) (stage : Option String) :
    Except PublishError (Fields Value) := do
  let given ← p.workflowDict payload
  let workflowDict := match stage with
    | some stage => given.set "stage" (.str stage)
    | none => given
  match p.lax.modelValidate fresh workflowDict with
  | none => .error .validation
  | some envelope => p.transport envelope

/-- `_validate_workflow_contract`. A blank stage is not checked. -/
def validateWorkflowContract (workflow : Fields Value) : Except PublishError Unit :=
  let targetStage := strippedField workflow "stage"
  if targetStage = "" then .ok ()
  else p.topology.validatePublishContract targetStage (textField workflow "action")
    (payloadField workflow) (nonEmpty (strippedField workflow "origin_stage"))

/-- `_resolved_workflow_max_priority`. -/
def resolvedWorkflowMaxPriority (stage : String) : Except PublishError (Option Int) :=
  if stage = "" then .ok none
  else do
    let arguments ← (p.topology.workflowQueueArguments stage).mapError .topology
    match arguments.lookup "x-max-priority" with
    | none | some .none => return none
    | some value => return some (← (value.toInt.mapError .conversion).mapError .topology)

/-- `_validate_workflow_priority`. -/
def validateWorkflowPriority (workflow : Fields Value) : Except PublishError Unit := do
  let maxPriority ← p.resolvedWorkflowMaxPriority (strippedField workflow "stage")
  match workflow.lookup "priority", maxPriority with
  | some (.int priority), some maxPriority =>
    if priority > maxPriority then
      .error (.priority
        s!"workflow priority {priority} exceeds configured workflow_max_priority {maxPriority}")
    else .ok ()
  | _, _ => .ok ()

/-- The AMQP message. -/
def outgoing (workflow : Fields Value) (headers : Fields Value) (body : Bytes) : Outgoing where
  body
  correlationId :=
    ((textField workflow "correlation_id").bind nonEmpty).or
      ((textField workflow "task_id").bind nonEmpty)
  headers := fun key => (headers.lookup key).or <| List.lookup key <|
    [("task_id", .str ((textField workflow "task_id").getD "")),
      ("message_id", .str ((textField workflow "message_id").getD "")),
      ("stage", .str ((textField workflow "stage").getD ""))] ++
    (((textField workflow "origin_stage").bind nonEmpty).map fun s =>
      ("origin_stage", Value.str s)).toList
  priority := match workflow.lookup "priority" with
    | some (.int n) => some n
    | _ => none
  contentType := some "application/json"

/-- `publish_workflow_message`: the dictionary that is sent and the message, which goes to the
workflow exchange under the routing key. -/
def publishWorkflowMessage (fresh : Fresh) (payload : WorkflowPayload) (headers : Fields Value) :
    Except PublishError (Fields Value × Outgoing) := do
  let workflow ← p.prepareWorkflowPayload fresh payload none
  p.validateWorkflowContract workflow
  p.validateWorkflowPriority workflow
  let body ← (p.codec.toJson (.dict workflow)).mapError fun e => .serialization e.1 e.2
  return (workflow, outgoing workflow headers body)

/-- `publish_workflow`, with the routing key it publishes under. -/
def publishWorkflow (fresh : Fresh) (payload : WorkflowPayload) (headers : Fields Value) :
    Except PublishError (String × Fields Value × Outgoing) := do
  let workflow ← p.prepareWorkflowPayload fresh payload none
  let routingKey ← (p.topology.workflowPublishRoutingKey
    ((textField workflow "stage").getD "")).mapError .topology
  return (routingKey, ← p.publishWorkflowMessage fresh (.mapping workflow) headers)

/-- `publish_to_stage`. -/
def publishToStage (fresh : Fresh) (payload : WorkflowPayload) (stage : String)
    (headers : Fields Value) : Except PublishError (String × Fields Value × Outgoing) := do
  let workflow ← p.prepareWorkflowPayload fresh payload (some stage)
  let routingKey ← (p.topology.workflowPublishRoutingKey stage).mapError .topology
  return (routingKey, ← p.publishWorkflowMessage fresh (.mapping workflow) headers)

/-- `publish_to_entry`. -/
def publishToEntry (fresh : Fresh) (payload : WorkflowPayload) (route : String)
    (headers : Fields Value) : Except PublishError (String × Fields Value × Outgoing) := do
  let stage ← (p.topology.workflowEntryTargetStage route).mapError .topology
  let workflow ← p.prepareWorkflowPayload fresh payload (some stage)
  let routingKey ← (p.topology.workflowEntryRoutingKey route).mapError .topology
  return (routingKey, ← p.publishWorkflowMessage fresh (.mapping workflow) headers)

end WorkflowPublisher

end Relayna.Rabbitmq
