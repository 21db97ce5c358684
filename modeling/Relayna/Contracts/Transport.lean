import Relayna.Foundation.Python
import Mathlib.Data.List.Infix

/-!
# Message bodies: the JSON codec, field aliases and envelopes

What a consumer does with a body before it knows what the message is. The JSON parsers and
the pydantic models are parameters, `Codec`; the fallback from one parser to the other, the
renaming of aliased fields and the check of a workflow action are the program's own.

An envelope keeps the fields that consumers read. What else has been validated is `content`,
which only `model_dump` looks at.
-/
namespace Relayna.Contracts

open Python

/-- A dictionary in insertion order. -/
abbrev Fields (β : Type) := List (String × β)

namespace Fields

variable {β : Type}

def has (d : Fields β) (key : String) : Bool := d.any (·.1 == key)

def set (d : Fields β) (key : String) (v : β) : Fields β :=
  if d.has key then d.map fun entry => if entry.1 == key then (key, v) else entry
  else d ++ [(key, v)]

def pop (d : Fields β) (key : String) : Fields β := d.filter (·.1 != key)

def update (d e : Fields β) : Fields β := e.foldl (fun d entry => d.set entry.1 entry.2) d

end Fields

structure ContractAliasConfig where
  fieldAliases : Fields String

def documentCompatAliases : ContractAliasConfig := ⟨[("task_id", "documentId")]⟩

/-- `_alias_map(alias_config, source="payload")`. -/
def aliasMap (aliasConfig : Option ContractAliasConfig) : Fields String :=
  match aliasConfig with
  | none => documentCompatAliases.fieldAliases
  | some config => Fields.update documentCompatAliases.fieldAliases config.fieldAliases

/-- `normalize_contract_aliases(event, alias_config, drop_aliases=True)`. -/
def normalizeContractAliases (text : Text) (event : Fields Value)
    (aliasConfig : Option ContractAliasConfig) : Fields Value :=
  let aliases := aliasMap aliasConfig
  let named := aliases.foldl (fun data (canonical, other) =>
    if data.has canonical then data
    else match data.lookup other with
      | some v => data.set canonical v
      | none => data) event
  let dropped := aliases.foldl (fun data (canonical, other) =>
    if data.has canonical then Fields.pop data other else data) named
  match dropped.lookup "task_id" with
  | none | some .none => dropped
  | some v => dropped.set "task_id" (.str (text.str v))

/-- `denormalize_contract_aliases(event, alias_config, alias_only=alias_only)`. -/
def denormalizeContractAliases (event : Fields Value) (aliasConfig : Option ContractAliasConfig)
    (aliasOnly : Bool) : Fields Value :=
  (aliasMap aliasConfig).foldl (fun data (canonical, other) =>
    match data.lookup canonical with
    | none | some .none => data
    | some v =>
      let named := data.set other v
      if aliasOnly then Fields.pop named canonical else named) event

/-- `public_output_aliases`. -/
def publicOutputAliases (event : Fields Value) (aliasConfig : Option ContractAliasConfig) :
    Fields Value :=
  match aliasConfig with
  | none => event
  | some config => denormalizeContractAliases event (some config) true

/-- `_normalize_payload`. -/
def normalizePayload (text : Text) (payload : Value) (aliasConfig : Option ContractAliasConfig) :
    Value :=
  match payload with
  | .dict fields => .dict (normalizeContractAliases text fields aliasConfig)
  | other => other

/-- `_normalize_batch_payload`. -/
def normalizeBatchPayload (text : Text) (payload : Fields Value)
    (aliasConfig : Option ContractAliasConfig) : Fields Value :=
  let normalized := normalizeContractAliases text payload aliasConfig
  match normalized.lookup "tasks" with
  | some (.list tasks) =>
    normalized.set "tasks" (.list (tasks.map fun task => normalizePayload text task aliasConfig))
  | _ => normalized

/-- `is_batch_task_payload`. -/
def isBatchTaskPayload (payload : Fields Value) : Bool :=
  match payload.lookup "batch_id", payload.lookup "tasks" with
  | some (.str _), some (.list _) => true
  | _, _ => false

/-- `_coerce_task_id`. -/
def coerceTaskId (payload : Value) : Option String :=
  match payload.get "task_id" with
  | some (.str s) => some s
  | _ => none

/-- `text or None`. -/
def nonEmpty (s : String) : Option String := if s = "" then none else some s

/-- `_coerce_task_type`. -/
def coerceTaskType (text : Text) (payload : Value) : Option String :=
  match payload with
  | .dict fields => nonEmpty (text.stripped (fields.lookup "task_type"))
  | _ => none

structure TaskEnvelope where
  taskId : String
  taskType : Option String
  correlationId : Option String
  content : Value

structure BatchTaskEnvelope where
  batchId : String
  tasks : List TaskEnvelope

structure StatusEventEnvelope where
  taskId : String
  correlationId : Option String
  statusMeta : Fields Value

structure WorkflowEnvelope where
  taskId : String
  messageId : String
  correlationId : Option String
  originStage : Option String
  action : Option String
  payload : Fields Value
  content : Value

/-- What default factories draw while one message is validated: `uuid4().hex`, `now`. -/
structure Fresh where
  uuid : String
  now : Int
  deriving DecidableEq

/-- The JSON parsers and the pydantic models. `none` is a `ValidationError`. Serialising fails
with an exception's type and text, on nesting beyond what the serialiser follows for one. -/
structure Codec where
  text : Text
  fromJson : Bytes → Except String Value
  loads : Bytes → Except String Value
  validateTask : Fresh → Value → Option TaskEnvelope
  validateBatch : Fresh → Value → Option BatchTaskEnvelope
  validateStatus : Fresh → Value → Option StatusEventEnvelope
  validateWorkflow : Fresh → Value → Option WorkflowEnvelope
  dumpTask : TaskEnvelope → Except (String × String) Value
  dumpWorkflow : WorkflowEnvelope → Except (String × String) Value
  toJson : Value → Except (String × String) Bytes

/-- `parse_transport_json`. The strict parser gives up on deep nesting, the other one does
not; the error is the text of the `ValueError`. -/
def Codec.parseTransportJson (codec : Codec) (payload : Bytes) : Except String Value :=
  match codec.fromJson payload with
  | .ok v => .ok v
  | .error text =>
    if "recursion limit exceeded".toList <:+: text.toList then codec.loads payload
    else .error text

structure PayloadSchema where
  requiredFields : List String
  optionalFields : List String

structure ActionSchema where
  action : String
  payload : Option PayloadSchema

/-- `PayloadSchema.validate_payload` reports no error. -/
def PayloadSchema.accepts (schema : PayloadSchema) (payload : Fields Value) : Bool :=
  schema.requiredFields.all payload.has &&
    payload.all fun entry =>
      schema.requiredFields.contains entry.1 || schema.optionalFields.contains entry.1

/-- `_validate_action_contract`: the `reason` of the `WorkflowContractError`, if one is raised. -/
def validateActionContract (actions : List ActionSchema) (action : Option String)
    (payload : Fields Value) : Option String :=
  if actions.isEmpty then none
  else
    let actionName := strip (action.getD "")
    if actionName = "" then some "unsupported_action"
    else match actions.find? (·.action == actionName) with
      | none => some "unsupported_action"
      | some schema =>
        if schema.payload.all (·.accepts payload) then none else some "payload_schema_violation"

end Relayna.Contracts
