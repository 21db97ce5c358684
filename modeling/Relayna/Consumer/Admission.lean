import Relayna.Consumer.Workflow
import Relayna.Contracts.Tabulated
import Relayna.Rabbitmq.WorkflowPublish

/-!
# From the publisher's contract to the consumer's

A publisher checks a message before it is sent and a consumer when it arrives. Between the two
checks the consumer resolves the field aliases once more, also in messages whose publisher has not
done so, and the stage of the message may be blank, which the publisher does not check.
-/
namespace Relayna.Consumer

open Python Contracts Contracts.Workflow Await Failing Rabbitmq Topology

/-- Why a message is refused before the handler sees it. -/
structure Refusal where
  taskId : Option String
  reason : String
  exceptionType : Option String

/-- The stage as its consumer knows it. -/
def stageOf (s : Topology.WorkflowStage) : WorkflowStage where
  name := s.name
  acceptedActions := s.acceptedActions
  timeoutSeconds := s.timeoutSeconds
  maxRetries := s.maxRetries
  retryDelayMs := s.retryDelayMs
  dedupKeyFields := s.dedupKeyFields

namespace WorkflowConsumer

variable (c : WorkflowConsumer)

/-- The checks at the start of `_handle_message_impl`. -/
def examine (fresh : Fresh) (body : Bytes) : Except Refusal WorkflowEnvelope :=
  match c.codec.parseTransportJson body with
  | .error _ => .error ⟨none, "malformed_json", none⟩
  | .ok payload =>
    match c.codec.validateWorkflow fresh (c.normalize payload) with
    | none =>
      .error ⟨coerceTaskId (c.normalize payload), "invalid_envelope", some "ValidationError"⟩
    | some message =>
      match validateActionContract c.stage.acceptedActions message.action message.payload with
      | some reason => .error ⟨message.taskId, reason, some "WorkflowContractError"⟩
      | none => .ok message

/-- The rest of `_handle_message_impl`. -/
def proceed (d : Delivery) : Except Refusal WorkflowEnvelope → Proc Bool
  | .error refusal => c.refuse d refusal.taskId refusal.reason refusal.exceptionType
  | .ok message => do
    c.emitObservation (.workflowMessageReceived (c.subject d message)
      d.metadata.deliveryTag d.metadata.redelivered)
    let rawPayload ←
      Proc.ofExcept ((c.codec.dumpWorkflow message).mapError fun e => .error e.1 e.2)
    c.processDeduplicated d message (c.makeContext d message rawPayload)

/-- A message is dead-lettered, or rejected, for the reason the checks give. -/
theorem handleMessageImpl_eq_proceed (d : Delivery) :
    c.handleMessageImpl d = c.proceed d (c.examine d.message.fresh d.message.body) := by
  unfold handleMessageImpl examine
  cases c.codec.parseTransportJson d.message.body with
  | error e => rfl
  | ok payload =>
    simp only
    cases c.codec.validateWorkflow d.message.fresh (c.normalize payload) with
    | none => rfl
    | some message =>
      simp only
      cases validateActionContract c.stage.acceptedActions message.action message.payload with
      | some reason => rfl
      | none => rfl

end WorkflowConsumer

/-! ## The second resolution of aliases -/

section Kept

variable {lax : Lax} {e e' : Envelope} {fresh : Fresh} {sent : Fields Value}
  {accepted : List ActionSchema} {key : String}

/-- What resolving the aliases of a message that has been sent does to the fields of the envelope:
`task_id` and `stage` are left, fields that were missing are filled in with values of their type,
and what the stage's contract looks at is left. -/
structure Kept (lax : Lax) (accepted : List ActionSchema) (sent received : Fields Value) :
    Prop where
  taskId : received.has "task_id" = true
  stage : received.has "stage" = true
  originStage : sent.has "origin_stage" = false →
    (lax.optionalText (received.lookup "origin_stage")).isSome = true
  action : sent.has "action" = false →
    (lax.optionalText (received.lookup "action")).isSome = true
  priority : sent.has "priority" = false →
    (lax.optionalPriority (received.lookup "priority")).isSome = true
  contract : accepted ≠ [] → received.has "action" = true ∧ (received.has "payload" = true ∨
    validateActionContract accepted (textField sent "action") [] = none)

theorem has_of_lookup {v : Value} (h : sent.lookup key = some v) : sent.has key = true := by
  rw [← Fields.lookup_isSome, h, Option.isSome_some]

variable (text : Text) (aliasConfig : Option ContractAliasConfig)

/-- A field that was sent is received as it is or not at all. -/
theorem received_cases {v : Value} (ne : key ≠ "task_id") (h : sent.lookup key = some v) :
    (normalizeContractAliases text sent aliasConfig).lookup key = some v ∨
      (normalizeContractAliases text sent aliasConfig).has key = false ∧
      (normalizeContractAliases text sent aliasConfig).lookup key = none := by
  cases has : (normalizeContractAliases text sent aliasConfig).has key with
  | true => exact .inl ((lookup_normalize (has_of_lookup h) ne has).trans h)
  | false => exact .inr ⟨rfl, Fields.lookup_eq_none has⟩

/-- A field that may be missing is read from what is received if it could be read from what was
sent, and what fills it in can be read. -/
theorem read_received {β : Type} (read : Option Value → Option β) (ne : key ≠ "task_id")
    (missing : (read none).isSome = true)
    (given : ∀ v, sent.lookup key = some v → (read (some v)).isSome = true)
    (filled : sent.has key = false →
      (read ((normalizeContractAliases text sent aliasConfig).lookup key)).isSome = true) :
    ∃ b, read ((normalizeContractAliases text sent aliasConfig).lookup key) = some b := by
  refine Option.isSome_iff_exists.mp ?_
  cases h : sent.lookup key with
  | none => exact filled (by rw [← Fields.lookup_isSome, h, Option.isSome_none])
  | some v =>
    obtain same | ⟨-, gone⟩ := received_cases text aliasConfig ne h
    · exact same ▸ given v h
    · exact gone ▸ missing

/-- What was sent is validated again unless a required field is gone or a field has been filled in
with a value of another type. -/
theorem validates_received (dumped : lax.Dumped e sent)
    (correlated : ∃ s, sent.lookup "correlation_id" = some (.str s))
    (kept : Kept lax accepted sent (normalizeContractAliases text sent aliasConfig)) :
    ∃ e', lax.modelValidate fresh (normalizeContractAliases text sent aliasConfig) = some e' := by
  have texts : ∀ {key}, ∀ o : Option String, sent.lookup key = o.map .str →
      ∀ v, sent.lookup key = some v → ∃ s, v = .str s := by
    intro key o ho v hv
    obtain ⟨s, -, rfl⟩ := Option.map_eq_some_iff.mp (ho.symm.trans hv)
    exact ⟨s, rfl⟩
  have present : ∀ {key v}, sent.lookup key = some v → ¬sent.has key = false := fun h => by
    simp [has_of_lookup h]
  obtain ⟨payload, -, hpayload⟩ := dumped.payload
  obtain ⟨metadata, hmetadata⟩ := dumped.metadata
  obtain ⟨s, correlated⟩ := correlated
  obtain ⟨_, messageId⟩ := read_received text aliasConfig (lax.textOr fresh.uuid) (by decide) rfl
    (fun v hv => by rw [← hv, dumped.messageId]; simp [Lax.textOr, lax.str_str])
    (fun h => absurd h (present dumped.messageId))
  obtain ⟨_, correlationId⟩ := read_received text aliasConfig lax.optionalText (by decide) rfl
    (fun v hv => by rw [← hv, correlated]; simp [Lax.optionalText, lax.str_str])
    (fun h => absurd h (present correlated))
  obtain ⟨_, originStage⟩ := read_received text aliasConfig lax.optionalText (by decide) rfl
    (fun v hv => by
      obtain ⟨s, rfl⟩ := texts _ dumped.originStage v hv
      simp [Lax.optionalText, lax.str_str])
    kept.originStage
  obtain ⟨_, action⟩ := read_received text aliasConfig lax.optionalText (by decide) rfl
    (fun v hv => by
      obtain ⟨s, rfl⟩ := texts _ dumped.action v hv
      simp [Lax.optionalText, lax.str_str])
    kept.action
  obtain ⟨_, received⟩ := read_received text aliasConfig Lax.mappingOr (by decide) rfl
    (fun v hv => by rw [← hv, hpayload]; rfl) (fun h => absurd h (present hpayload))
  obtain ⟨_, metadata⟩ := read_received text aliasConfig Lax.mappingOr (by decide) rfl
    (fun v hv => by rw [← hv, hmetadata]; rfl) (fun h => absurd h (present hmetadata))
  obtain ⟨_, priority⟩ := read_received text aliasConfig lax.optionalPriority (by decide) rfl
    (fun v hv => by
      obtain ⟨n, -, rfl⟩ := Option.map_eq_some_iff.mp (dumped.priority.symm.trans hv)
      simp [Lax.optionalPriority, lax.int_int, n.2])
    kept.priority
  obtain ⟨_, specVersion⟩ := read_received text aliasConfig (lax.textOr "1.0") (by decide) rfl
    (fun v hv => by rw [← hv, dumped.specVersion]; simp [Lax.textOr, lax.str_str])
    (fun h => absurd h (present dumped.specVersion))
  have taskId := lookup_normalize_taskId dumped.taskId kept.taskId
  have stage := (lookup_normalize (has_of_lookup dumped.stage) (by decide) kept.stage).trans
    dumped.stage
  exact ⟨⟨e.taskId, _, _, e.stage, _, _, _, _, _, _, _, apart_filter _⟩, Lax.modelValidate_iff.mpr
    ⟨by rw [taskId]; exact lax.str_str _, messageId, correlationId,
      by rw [stage]; exact lax.str_str _, originStage, action, received, metadata, priority,
      specVersion, rfl⟩⟩

/-- What has been validated again shows that the fields are still there. -/
theorem kept_of_validates
    (valid : lax.Validates fresh (normalizeContractAliases text sent aliasConfig) e')
    (contract : accepted ≠ [] →
      (normalizeContractAliases text sent aliasConfig).has "action" = true ∧
      ((normalizeContractAliases text sent aliasConfig).has "payload" = true ∨
        validateActionContract accepted (textField sent "action") [] = none)) :
    Kept lax accepted sent (normalizeContractAliases text sent aliasConfig) := by
  obtain ⟨v, taskId, -⟩ := Option.bind_eq_some_iff.mp valid.taskId
  obtain ⟨w, stage, -⟩ := Option.bind_eq_some_iff.mp valid.stage
  exact ⟨has_of_lookup taskId, has_of_lookup stage, fun _ => by rw [valid.originStage]; rfl,
    fun _ => by rw [valid.action]; rfl, fun _ => by rw [valid.priority]; rfl, contract⟩

end Kept

/-! ## The contract -/

theorem textField_eq {workflow : Fields Value} {key : String} {v : Option String}
    (h : workflow.lookup key = v.map .str) : textField workflow key = v := by
  unfold textField
  rw [h]
  cases v <;> rfl

theorem requireContract_ok {actions : List ActionSchema} {action : Option String}
    {payload : Fields Value} : requireContract actions action payload = .ok () ↔
      validateActionContract actions action payload = none := by
  unfold requireContract
  split <;> simp_all

/-- Without an action no contract is met. -/
theorem eq_nil_of_contract {actions : List ActionSchema} {payload : Fields Value}
    (h : validateActionContract actions none payload = none) : actions = [] := by
  cases actions with
  | nil => rfl
  | cons schema actions =>
    have blank : strip "" = "" := by decide
    simp [validateActionContract, blank] at h

section Published

variable {t : SharedStatusWorkflowTopology} {p : WorkflowPublisher} {fresh : Fresh}
  {payload : WorkflowPayload} {headers prepared workflow : Fields Value} {message : Outgoing}

theorem validateSource_ok {sourceStage targetStage : String} {action : Option String}
    {fields : Fields Value} {source : Topology.WorkflowStage}
    (h : t.validateSource sourceStage targetStage action fields = .ok ())
    (found : t.workflowStage sourceStage = .ok source) :
    source.terminal = false ∧
      (source.allowedNextStages ≠ [] → targetStage ∈ source.allowedNextStages) := by
  obtain ⟨other, known, h⟩ := bind_ok.mp h
  obtain rfl := Except.ok.inj (found.symm.trans (mapError_ok.mp known))
  split_ifs at h with terminal forbidden
  exact ⟨by simpa using terminal, fun listed => by
    by_contra missing
    exact forbidden ⟨listed, missing⟩⟩

/-- What an accepted message has been checked for. -/
structure Checked (p : WorkflowPublisher) (workflow : Fields Value) : Prop where
  source : strippedField workflow "stage" ≠ "" → ∀ source,
    p.topology.workflowStage (strippedField workflow "origin_stage") = .ok source →
    strippedField workflow "origin_stage" ≠ "" →
    source.terminal = false ∧ (source.allowedNextStages ≠ [] →
      strippedField workflow "stage" ∈ source.allowedNextStages)
  destination : strippedField workflow "stage" ≠ "" → ∀ destination,
    p.topology.workflowStage (strippedField workflow "stage") = .ok destination →
    validateActionContract destination.acceptedActions (textField workflow "action")
      (payloadField workflow) = none

theorem checked_of_validate (h : p.validateWorkflowContract workflow = .ok ()) :
    Checked p workflow := by
  unfold WorkflowPublisher.validateWorkflowContract at h
  simp only at h
  split at h
  · rename_i blank
    exact ⟨fun named => absurd blank named, fun named => absurd blank named⟩
  · obtain ⟨destination, known, h⟩ := bind_ok.mp h
    refine ⟨fun _ source found named => ?_, fun _ other found => ?_⟩
    · have origin : nonEmpty (strippedField workflow "origin_stage") =
          some (strippedField workflow "origin_stage") := if_neg named
      rw [origin] at h
      obtain ⟨_, hs, -⟩ := bind_ok.mp h
      exact validateSource_ok hs found
    · obtain rfl := Except.ok.inj (found.symm.trans (mapError_ok.mp known))
      obtain ⟨_, -, hd⟩ := bind_ok.mp h
      exact requireContract_ok.mp hd

theorem prepareWorkflowPayload_ok
    (h : p.prepareWorkflowPayload fresh payload none = .ok prepared) :
    ∃ e, p.lax.asTransportDict e = .ok prepared := by
  obtain ⟨given, -, h⟩ := bind_ok.mp h
  simp only at h
  split at h
  · cases h
  · next e _ => exact ⟨e, mapError_ok.mp h⟩

theorem publishWorkflowMessage_ok
    (h : p.publishWorkflowMessage fresh payload headers = .ok (workflow, message)) :
    ∃ e, p.lax.asTransportDict e = .ok workflow ∧ Checked p workflow ∧
      p.codec.toJson (.dict workflow) = .ok message.body := by
  obtain ⟨prepared, hp, h⟩ := bind_ok.mp h
  obtain ⟨_, contract, h⟩ := bind_ok.mp h
  obtain ⟨_, -, h⟩ := bind_ok.mp h
  obtain ⟨body, json, h⟩ := bind_ok.mp h
  obtain ⟨rfl, rfl⟩ := Prod.mk.inj (Except.ok.inj h)
  obtain ⟨e, sent⟩ := prepareWorkflowPayload_ok hp
  exact ⟨e, sent, checked_of_validate contract, mapError_ok.mp json⟩

/-! ## Messages to a stage -/

end Published

section Received

variable {lax : Lax} {e e' : Envelope} {fresh : Fresh} {sent : Fields Value}
  {accepted : List ActionSchema} {text : Text} {aliasConfig : Option ContractAliasConfig}

/-- The contract that what was sent meets is met by what is received if the action is still
there, and so is a payload that the action needs. -/
theorem contract_received_iff (dumped : lax.Dumped e sent)
    (valid : lax.Validates fresh (normalizeContractAliases text sent aliasConfig) e')
    (met : validateActionContract accepted (textField sent "action") (payloadField sent) = none) :
    validateActionContract accepted e'.action e'.payload = none ↔ (accepted ≠ [] →
      (normalizeContractAliases text sent aliasConfig).has "action" = true ∧
      ((normalizeContractAliases text sent aliasConfig).has "payload" = true ∨
        validateActionContract accepted (textField sent "action") [] = none)) := by
  by_cases empty : accepted = []
  · subst empty
    simp [validateActionContract]
  · have action := textField_eq dumped.action
    obtain ⟨payload, -, hpayload⟩ := dumped.payload
    have given : payloadField sent = payload := by
      unfold payloadField
      rw [hpayload]
    cases named : e.action with
    | none =>
      rw [action, named] at met
      exact absurd (eq_nil_of_contract met) empty
    | some a =>
      have sentAction : sent.lookup "action" = some (.str a) := by rw [dumped.action, named]; rfl
      have readAction := valid.action
      have readPayload := valid.payload
      rw [action, named] at met ⊢
      obtain same | ⟨gone, none⟩ := received_cases text aliasConfig (by decide) sentAction
      · rw [same] at readAction
        have hasAction := has_of_lookup same
        have : e'.action = some a := by
          simpa [Lax.optionalText, lax.str_str, eq_comm] using readAction
        obtain same | ⟨gone, none⟩ := received_cases text aliasConfig (by decide) hpayload
        · rw [same] at readPayload
          have hasPayload := has_of_lookup same
          have : e'.payload = payload := by simpa [Lax.mappingOr, eq_comm] using readPayload
          simp_all
        · rw [none] at readPayload
          have : e'.payload = [] := by simpa [Lax.mappingOr, eq_comm] using readPayload
          simp_all
      · rw [none] at readAction
        have : e'.action = Option.none := by simpa [Lax.optionalText, eq_comm] using readAction
        rw [this]
        refine iff_of_false (fun h => empty (eq_nil_of_contract h)) fun h => ?_
        rw [(h empty).1] at gone
        cases gone

end Received

/-! ## Both contracts -/

/-- What pydantic and the JSON parser are relied on for: the consumer validates by the model, and
what `model_dump(mode="json")` returns comes back from its JSON text. -/
structure Realises (lax : Lax) (codec : Codec) : Prop where
  validate : ∀ fresh data, codec.validateWorkflow fresh (.dict data) =
    (lax.modelValidate fresh data).map Envelope.view
  decoded : ∀ {e data body}, lax.asTransportDict e = .ok data →
    codec.toJson (.dict data) = .ok body → codec.parseTransportJson body = .ok (.dict data)

/-- A consumer of the stage with the publisher's alias configuration. -/
structure WorkflowConsumer.Serves (c : WorkflowConsumer) (p : WorkflowPublisher)
    (destination : Topology.WorkflowStage) : Prop where
  codec : c.codec = p.codec
  aliasConfig : c.aliasConfig = p.aliasConfig
  stage : c.stage = stageOf destination

section Contracts

variable {p : WorkflowPublisher} {c : WorkflowConsumer} {destination : Topology.WorkflowStage}
  {e : Envelope} {fresh : Fresh} {payload : WorkflowPayload} {headers workflow : Fields Value}
  {message : Outgoing}

/-- The message is let through by every consumer of its stage, and its origin was allowed to send
it. -/
structure Upheld (p : WorkflowPublisher) (workflow : Fields Value) (message : Outgoing) : Prop where
  inbound : ∀ destination,
    p.topology.workflowStage (strippedField workflow "stage") = .ok destination →
    ∀ c : WorkflowConsumer, c.Serves p destination → ∀ fresh, ∃ envelope,
      c.examine fresh message.body = .ok envelope
  origin : ∀ source,
    p.topology.workflowStage (strippedField workflow "origin_stage") = .ok source →
    source.terminal = false ∧ (source.allowedNextStages ≠ [] →
      strippedField workflow "stage" ∈ source.allowedNextStages)

/-- Resolving the aliases once more leaves the envelope readable, and a message with a blank stage
comes from a stage that may send it. -/
structure Faithful (p : WorkflowPublisher) (workflow : Fields Value) : Prop where
  aliases : ∀ destination,
    p.topology.workflowStage (strippedField workflow "stage") = .ok destination →
    Kept p.lax destination.acceptedActions workflow
      (normalizeContractAliases p.codec.text workflow p.aliasConfig)
  blank : strippedField workflow "stage" = "" → ∀ source,
    p.topology.workflowStage (strippedField workflow "origin_stage") = .ok source →
    source.terminal = false ∧ (source.allowedNextStages ≠ [] → "" ∈ source.allowedNextStages)

theorem examine_iff (realises : Realises p.lax p.codec) (serves : c.Serves p destination)
    (sent : p.lax.asTransportDict e = .ok workflow)
    (json : p.codec.toJson (.dict workflow) = .ok message.body) :
    (∃ envelope, c.examine fresh message.body = .ok envelope) ↔
      ∃ e', p.lax.Validates fresh
        (normalizeContractAliases p.codec.text workflow p.aliasConfig) e' ∧
        validateActionContract destination.acceptedActions e'.action e'.payload = none := by
  have normalized : c.normalize (.dict workflow) =
      .dict (normalizeContractAliases p.codec.text workflow p.aliasConfig) := by
    simp only [Settings.normalize, serves.codec, serves.aliasConfig, normalizePayload]
  unfold WorkflowConsumer.examine
  rw [serves.codec, realises.decoded sent json, serves.stage]
  simp only [normalized, realises.validate]
  cases valid : p.lax.modelValidate fresh
      (normalizeContractAliases p.codec.text workflow p.aliasConfig) with
  | none =>
    refine iff_of_false (by simp) ?_
    rintro ⟨e', h, -⟩
    rw [Lax.modelValidate_iff.mpr h] at valid
    cases valid
  | some e' =>
    have unique : ∀ e'', p.lax.Validates fresh
        (normalizeContractAliases p.codec.text workflow p.aliasConfig) e'' → e'' = e' :=
      fun e'' h => Option.some.inj ((Lax.modelValidate_iff.mpr h).symm.trans valid)
    have validates := Lax.modelValidate_iff.mp valid
    simp only [Option.map_some, Envelope.view, stageOf]
    cases contract : validateActionContract destination.acceptedActions e'.action e'.payload with
    | some reason =>
      refine iff_of_false (by simp) ?_
      rintro ⟨e'', h, met⟩
      obtain rfl := unique e'' h
      rw [contract] at met
      cases met
    | none => exact iff_of_true ⟨_, rfl⟩ ⟨e', validates, contract⟩

/-- Some consumer of the stage. -/
def anyConsumer (p : WorkflowPublisher) (destination : Topology.WorkflowStage) :
    WorkflowConsumer where
  codec := p.codec
  consumerName := "worker"
  retryPolicy := none
  retryStatuses := {}
  aliasConfig := p.aliasConfig
  observationSink := false
  dlqStore := false
  metrics := false
  stage := stageOf destination
  contractStore := false
  leasing := none

/-- A published message meets the contract of its stage, and its origin was allowed to send it,
exactly if resolving the aliases again leaves what it needs and its stage has been checked. -/
theorem upheld_iff_faithful (accepted : p.topology.postInit = .ok ())
    (realises : Realises p.lax p.codec)
    (published : p.publishWorkflowMessage fresh payload headers = .ok (workflow, message)) :
    Upheld p workflow message ↔ Faithful p workflow := by
  have valid := SharedStatusWorkflowTopology.valid_of_postInit accepted
  have named : ∀ {name stage}, p.topology.workflowStage (strip name) = .ok stage →
      strip name ≠ "" := by
    intro name stage found blank
    obtain ⟨member, same⟩ := valid.workflowStage_iff.mp found
    rw [blank] at same
    exact valid.named stage member (by rw [same]; decide)
  obtain ⟨e, sent, checked, json⟩ := publishWorkflowMessage_ok published
  obtain ⟨dumped, correlated⟩ := Lax.asTransportDict_ok sent
  constructor
  · intro upheld
    refine ⟨fun destination found => ?_,
      fun blank source found => blank ▸ upheld.origin source found⟩
    have serves : (anyConsumer p destination).Serves p destination := ⟨rfl, rfl, rfl⟩
    obtain ⟨e', validates, contract⟩ := (examine_iff realises serves sent json).mp
      (upheld.inbound destination found _ serves fresh)
    exact kept_of_validates _ _ validates
      ((contract_received_iff dumped validates (checked.destination (named found) _ found)).mp
        contract)
  · intro faithful
    refine ⟨fun destination found c serves fresh => ?_, fun source found => ?_⟩
    · have kept := faithful.aliases destination found
      obtain ⟨e', validates⟩ := validates_received _ _ dumped correlated kept
      have validates := Lax.modelValidate_iff.mp validates
      exact (examine_iff realises serves sent json).mpr ⟨e', validates,
        (contract_received_iff dumped validates (checked.destination (named found) _ found)).mpr
          kept.contract⟩
    · by_cases blank : strippedField workflow "stage" = ""
      · rw [blank]
        exact faithful.blank blank source found
      · exact checked.source blank source found (named found)

end Contracts

/-! ## Three messages -/

/-- Texts and integers are what they are; there is nothing else to convert. -/
def strictLax : Lax where
  str
    | .str s => some s
    | _ => none
  int
    | .int n => some n
    | _ => none
  jsonable := .ok
  str_str _ := rfl
  int_int _ := rfl

/-- A message to a stage that accepts its action. -/
def approvalMessage : Fields Value :=
  [("task_id", .str "t"), ("message_id", .str "m"), ("stage", .str "review"),
    ("origin_stage", .str "planner"), ("action", .str "approve"),
    ("payload", .dict [("id", .int 7)]), ("meta", .dict []), ("spec_version", .str "1.0"),
    ("correlation_id", .str "t")]

/-- A message with a field of its own, `op`. -/
def extraMessage : Fields Value :=
  [("task_id", .str "t"), ("message_id", .str "m"), ("correlation_id", .str "t"),
    ("stage", .str "planner"), ("payload", .dict []), ("meta", .dict []),
    ("spec_version", .str "1.0"), ("op", .int 7)]

/-- A message to no stage from the stage `done`. -/
def blankMessage : Fields Value :=
  [("task_id", .str "t"), ("message_id", .str "m"), ("stage", .str ""),
    ("origin_stage", .str "done"), ("payload", .dict []), ("meta", .dict []),
    ("spec_version", .str "1.0"), ("correlation_id", .str "t")]

def approvalBody : Bytes :=
  ascii "\x7b\"task_id\":\"t\",\"message_id\":\"m\",\"stage\":\"review\",\"origin_stage" ++
    ascii "\":\"planner\",\"action\":\"approve\",\"payload\":\x7b\"id\":7\x7d,\"meta\":" ++
    ascii "\x7b\x7d,\"spec_version\":\"1.0\",\"correlation_id\":\"t\"\x7d"

def extraBody : Bytes :=
  ascii "\x7b\"task_id\":\"t\",\"message_id\":\"m\",\"correlation_id\":\"t\",\"stage\":" ++
    ascii "\"planner\",\"payload\":\x7b\x7d,\"meta\":\x7b\x7d,\"spec_version\":\"1.0\",\"" ++
    ascii "op\":7\x7d"

def blankBody : Bytes :=
  ascii "\x7b\"task_id\":\"t\",\"message_id\":\"m\",\"stage\":\"\",\"origin_stage\":\"d" ++
    ascii "one\",\"payload\":\x7b\x7d,\"meta\":\x7b\x7d,\"spec_version\":\"1.0\",\"correl" ++
    ascii "ation_id\":\"t\"\x7d"

def messageCodec : Codec :=
  { Codec.tabulated [(approvalBody, .dict approvalMessage), (extraBody, .dict extraMessage),
      (blankBody, .dict blankMessage)] with
    validateWorkflow := fun fresh v =>
      match v with
      | .dict data => (strictLax.modelValidate fresh data).map Envelope.view
      | _ => none }

theorem messageCodec_realises : Realises strictLax messageCodec where
  validate _ _ := rfl
  decoded _ json := Codec.parses_tabulated (by decide +kernel) rfl json

def plannerStage : Topology.WorkflowStage where
  name := "planner"
  queue := "planner.queue"
  bindingKeys := ["planner.in"]
  publishRoutingKey := "planner.in"
  allowedNextStages := ["review"]

def reviewStage : Topology.WorkflowStage where
  name := "review"
  queue := "review.queue"
  bindingKeys := ["review.in"]
  publishRoutingKey := "review.in"
  acceptedActions := [⟨"approve", some ⟨["id"], []⟩⟩]

def doneStage : Topology.WorkflowStage where
  name := "done"
  queue := "done.queue"
  bindingKeys := ["done.in"]
  publishRoutingKey := "done.in"
  terminal := true

def endingTopology : SharedStatusWorkflowTopology where
  stages := [plannerStage, reviewStage, doneStage]

/-- A publisher that knows `op` as another name for `action`. -/
def opPublisher : WorkflowPublisher where
  codec := messageCodec
  lax := strictLax
  aliasConfig := some ⟨[("action", "op")]⟩
  topology := endingTopology

/-- What is published of a payload that passes every check. -/
theorem publishWorkflowMessage_of {p : WorkflowPublisher} {fresh : Fresh}
    {payload : WorkflowPayload} {workflow : Fields Value} {body : Bytes}
    (prepared : p.prepareWorkflowPayload fresh payload none = .ok workflow)
    (contract : p.validateWorkflowContract workflow = .ok ())
    (priority : p.validateWorkflowPriority workflow = .ok ())
    (json : p.codec.toJson (.dict workflow) = .ok body) (headers : Fields Value) :
    p.publishWorkflowMessage fresh payload headers =
      .ok (workflow, WorkflowPublisher.outgoing workflow headers body) :=
  bind_ok.mpr ⟨_, prepared, bind_ok.mpr ⟨_, contract, bind_ok.mpr ⟨_, priority,
    bind_ok.mpr ⟨_, mapError_ok.mpr json, rfl⟩⟩⟩⟩

theorem upheld_approvalMessage :
    ∃ message, opPublisher.publishWorkflowMessage ⟨"m", 0⟩
        (.mapping [("task_id", .str "t"), ("stage", .str "review"),
          ("origin_stage", .str "planner"), ("op", .str "approve"),
          ("payload", .dict [("id", .int 7)])]) [] = .ok (approvalMessage, message) ∧
      Upheld opPublisher approvalMessage message := by
  obtain ⟨message, published⟩ : ∃ message, opPublisher.publishWorkflowMessage ⟨"m", 0⟩
      (.mapping [("task_id", .str "t"), ("stage", .str "review"),
        ("origin_stage", .str "planner"), ("op", .str "approve"),
        ("payload", .dict [("id", .int 7)])]) [] = .ok (approvalMessage, message) :=
    ⟨_, publishWorkflowMessage_of (by decide +kernel) (by decide +kernel) (by decide +kernel)
      (show messageCodec.toJson _ = .ok approvalBody by decide +kernel) []⟩
  refine ⟨message, published, (upheld_iff_faithful rfl messageCodec_realises published).mpr
    ⟨fun destination found => ?_, fun blank => absurd blank (by decide)⟩⟩
  obtain rfl := Except.ok.inj
    ((show endingTopology.workflowStage "review" = .ok _ from rfl).symm.trans found)
  exact ⟨rfl, rfl, fun _ => rfl, fun _ => rfl, fun _ => rfl, fun _ => ⟨rfl, .inl rfl⟩⟩

/-- An envelope is sent with its own field `op` as it is, and the consumer reads it as the action;
and a message without a stage is sent from a stage that is terminal. -/
theorem published_not_upheld :
    (∃ message, opPublisher.publishWorkflowMessage ⟨"m", 0⟩
        (.envelope ⟨"t", "m", none, "planner", none, none, [], [], none, "1.0", [("op", .int 7)],
          by decide⟩) [] = .ok (extraMessage, message) ∧
      (anyConsumer opPublisher plannerStage).examine ⟨"m", 0⟩ message.body =
        .error ⟨some "t", "invalid_envelope", some "ValidationError"⟩ ∧
      ¬Upheld opPublisher extraMessage message) ∧
    ∃ message, opPublisher.publishWorkflowMessage ⟨"m", 0⟩
        (.mapping [("task_id", .str "t"), ("stage", .str ""), ("origin_stage", .str "done")]) [] =
        .ok (blankMessage, message) ∧ ¬Upheld opPublisher blankMessage message := by
  have parsed : messageCodec.parseTransportJson extraBody = .ok (.dict extraMessage) :=
    Codec.parses_tabulated (by decide +kernel) rfl rfl
  have refused : (anyConsumer opPublisher plannerStage).examine ⟨"m", 0⟩ extraBody =
      .error ⟨some "t", "invalid_envelope", some "ValidationError"⟩ := by
    unfold WorkflowConsumer.examine
    rw [show (anyConsumer opPublisher plannerStage).codec = messageCodec from rfl, parsed]
    rfl
  refine ⟨⟨_, publishWorkflowMessage_of (by decide +kernel) (by decide +kernel) (by decide +kernel)
      (show messageCodec.toJson _ = .ok extraBody by decide +kernel) [], refused,
      fun upheld => ?_⟩,
    _, publishWorkflowMessage_of (by decide +kernel) (by decide +kernel) (by decide +kernel)
      (show messageCodec.toJson _ = .ok blankBody by decide +kernel) [], fun upheld => ?_⟩
  · obtain ⟨envelope, passed⟩ := upheld.inbound plannerStage rfl
      (anyConsumer opPublisher plannerStage) ⟨rfl, rfl, rfl⟩ ⟨"m", 0⟩
    cases refused.symm.trans passed
  · exact absurd (upheld.origin doneStage rfl).1 (by decide)

end Relayna.Consumer
