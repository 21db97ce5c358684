import Relayna.Contracts.Aliases
import Relayna.Foundation.Failing

/-!
# `WorkflowEnvelope` as a pydantic model

The fields of the model, its validation and its dump. What pydantic does with one value is a
parameter, `Lax`: the conversions to `str` and to `int`, and how a value of type `Any` is written
for JSON. Which fields there are, which of them may be missing and what stands in for them is the
program's.
-/
namespace Relayna.Contracts.Workflow

open Python Failing

/-- Validation in lax mode and `model_dump(mode="json")`, for one value. -/
structure Lax where
  str : Value → Option String
  int : Value → Option Int
  jsonable : Value → Except (String × String) Value
  str_str : ∀ s, str (.str s) = some s
  int_int : ∀ n, int (.int n) = some n

/-- `int` with `ge=0, le=255`. -/
abbrev Priority := { n : Int // 0 ≤ n ∧ n ≤ 255 }

def envelopeFields : List String :=
  ["task_id", "message_id", "correlation_id", "stage", "origin_stage", "action", "payload",
    "meta", "priority", "spec_version"]

theorem apart_filter (data : Fields Value) :
    ∀ entry ∈ data.filter fun entry => entry.1 ∉ envelopeFields, entry.1 ∉ envelopeFields :=
  fun _ member => of_decide_eq_true (List.mem_filter.mp member).2

structure Envelope where
  taskId : String
  messageId : String
  correlationId : Option String := none
  stage : String
  originStage : Option String := none
  action : Option String := none
  payload : Fields Value := []
  metadata : Fields Value := []
  priority : Option Priority := none
  specVersion : String := "1.0"
  extra : Fields Value := []
  extra_apart : ∀ entry ∈ extra, entry.1 ∉ envelopeFields

namespace Lax

variable (lax : Lax)

/-- A field of type `str` with a default. -/
def textOr (default : String) : Option Value → Option String
  | none => some default
  | some v => lax.str v

/-- A field of type `str | None`. -/
def optionalText : Option Value → Option (Option String)
  | none | some .none => some none
  | some v => (lax.str v).map some

/-- A field of type `dict[str, Any]` with the empty dictionary as default. -/
def mappingOr : Option Value → Option (Fields Value)
  | none => some []
  | some (.dict fields) => some fields
  | some _ => none

/-- The field `priority`. -/
def optionalPriority : Option Value → Option (Option Priority)
  | none | some .none => some none
  | some v => (lax.int v).bind fun n => if h : 0 ≤ n ∧ n ≤ 255 then some (some ⟨n, h⟩) else none

/-- `WorkflowEnvelope.model_validate`. -/
def modelValidate (fresh : Fresh) (data : Fields Value) : Option Envelope := do
  let taskId ← (data.lookup "task_id").bind lax.str
  let messageId ← lax.textOr fresh.uuid (data.lookup "message_id")
  let correlationId ← lax.optionalText (data.lookup "correlation_id")
  let stage ← (data.lookup "stage").bind lax.str
  let originStage ← lax.optionalText (data.lookup "origin_stage")
  let action ← lax.optionalText (data.lookup "action")
  let payload ← mappingOr (data.lookup "payload")
  let metadata ← mappingOr (data.lookup "meta")
  let priority ← lax.optionalPriority (data.lookup "priority")
  let specVersion ← lax.textOr "1.0" (data.lookup "spec_version")
  return {
    taskId, messageId, correlationId, stage, originStage, action, payload, metadata, priority,
    specVersion
    extra := data.filter fun entry => entry.1 ∉ envelopeFields
    extra_apart := apart_filter data }

def dumpFields (fields : Fields Value) : Except (String × String) (Fields Value) :=
  fields.mapM fun entry => do return (entry.1, ← lax.jsonable entry.2)

/-- A field that `exclude_none` leaves out. -/
def unlessNone (key : String) (v : Option Value) : Fields Value := (v.map (key, ·)).toList

/-- `value is None`. -/
def isNull : Value → Bool
  | .none => true
  | _ => false

/-- `model_dump(mode="json", exclude_none=True)`. -/
def modelDump (e : Envelope) : Except (String × String) (Fields Value) := do
  let payload ← lax.dumpFields e.payload
  let metadata ← lax.dumpFields e.metadata
  let extra ← lax.dumpFields (e.extra.filter fun entry => !isNull entry.2)
  return [("task_id", .str e.taskId), ("message_id", .str e.messageId)] ++
    unlessNone "correlation_id" (e.correlationId.map .str) ++ [("stage", .str e.stage)] ++
    unlessNone "origin_stage" (e.originStage.map .str) ++
    unlessNone "action" (e.action.map .str) ++
    [("payload", .dict payload), ("meta", .dict metadata)] ++
    unlessNone "priority" (e.priority.map fun n => .int n.1) ++
    [("spec_version", .str e.specVersion)] ++ extra

/-- `as_transport_dict`. -/
def asTransportDict (e : Envelope) : Except (String × String) (Fields Value) := do
  let data ← lax.modelDump e
  return if data.has "correlation_id" then data
    else data.set "correlation_id" (.str ((e.correlationId.filter (· ≠ "")).getD e.taskId))

end Lax

/-- The envelope as the consumers read it. -/
def Envelope.view (e : Envelope) : WorkflowEnvelope where
  taskId := e.taskId
  messageId := e.messageId
  correlationId := e.correlationId
  originStage := e.originStage
  action := e.action
  payload := e.payload
  content := .dict ([("stage", .str e.stage), ("meta", .dict e.metadata)] ++
    Lax.unlessNone "priority" (e.priority.map fun n => .int n.1) ++
    [("spec_version", .str e.specVersion)] ++ e.extra)

namespace Lax

variable {lax : Lax} {e : Envelope} {fresh : Fresh} {data fields fields' : Fields Value}
  {key : String}

/-! ## The dump -/

theorem dumpFields_keys (h : lax.dumpFields fields = .ok fields') :
    fields'.map Prod.fst = fields.map Prod.fst := by
  have dumped := mapM_ok h
  clear h
  induction dumped with
  | nil => rfl
  | cons item _ ih =>
    obtain ⟨v, -, item⟩ := bind_ok.mp item
    rw [List.map_cons, List.map_cons, ih, ← Except.ok.inj item]

theorem has_congr (h : fields'.map Prod.fst = fields.map Prod.fst) :
    fields'.has key = fields.has key := by
  have any : ∀ d : Fields Value, d.has key = (d.map Prod.fst).any (· == key) := fun d => by
    rw [List.any_map]
    rfl
  rw [any, any, h]

theorem lookup_extra (apart : ∀ entry ∈ fields, entry.1 ∉ envelopeFields)
    (dumped : lax.dumpFields (fields.filter fun entry => !isNull entry.2) = .ok fields')
    (member : key ∈ envelopeFields) : fields'.lookup key = none := by
  refine Fields.lookup_eq_none ?_
  rw [has_congr (dumpFields_keys dumped), Bool.eq_false_iff]
  intro has
  obtain ⟨entry, he, rfl⟩ := Fields.has_iff.mp has
  exact apart entry (List.mem_filter.mp he).1 member

theorem lookup_unlessNone {v : Option Value} {other : String} :
    (unlessNone key v).lookup other = if other = key then v else none := by
  unfold unlessNone
  by_cases same : other = key
  · cases v <;> simp [same]
  · cases v <;> simp [same, List.lookup_cons, beq_eq_false_iff_ne.mpr same]

/-- The fields of the model, but for `correlation_id`, in a dictionary made of an envelope. -/
structure Dumped (lax : Lax) (e : Envelope) (data : Fields Value) : Prop where
  taskId : data.lookup "task_id" = some (.str e.taskId)
  messageId : data.lookup "message_id" = some (.str e.messageId)
  stage : data.lookup "stage" = some (.str e.stage)
  originStage : data.lookup "origin_stage" = e.originStage.map .str
  action : data.lookup "action" = e.action.map .str
  payload : ∃ payload, lax.dumpFields e.payload = .ok payload ∧
    data.lookup "payload" = some (.dict payload)
  metadata : ∃ metadata, data.lookup "meta" = some (.dict metadata)
  priority : data.lookup "priority" = e.priority.map fun n => .int n.1
  specVersion : data.lookup "spec_version" = some (.str e.specVersion)

theorem Dumped.set_correlationId {v : Value} (dumped : lax.Dumped e data) :
    lax.Dumped e (data.set "correlation_id" v) := by
  obtain ⟨taskId, messageId, stage, originStage, action, ⟨payload, hp, hpayload⟩,
    ⟨metadata, hmetadata⟩, priority, specVersion⟩ := dumped
  refine ⟨?_, ?_, ?_, ?_, ?_, ⟨payload, hp, ?_⟩, ⟨metadata, ?_⟩, ?_, ?_⟩ <;>
    rwa [Fields.lookup_set_ne (by decide)]

theorem modelDump_ok (h : lax.modelDump e = .ok data) :
    lax.Dumped e data ∧ data.lookup "correlation_id" = e.correlationId.map .str := by
  obtain ⟨payload, hp, h⟩ := bind_ok.mp h
  obtain ⟨metadata, -, h⟩ := bind_ok.mp h
  obtain ⟨extra, hx, h⟩ := bind_ok.mp h
  have apart : ∀ key ∈ envelopeFields, extra.lookup key = none := fun _ =>
    lookup_extra e.extra_apart hx
  have correlationId := apart "correlation_id" (by decide)
  have originStage := apart "origin_stage" (by decide)
  have action := apart "action" (by decide)
  have priority := apart "priority" (by decide)
  obtain rfl := Except.ok.inj h
  clear h hx apart
  refine ⟨⟨?_, ?_, ?_, ?_, ?_, ⟨payload, hp, ?_⟩, ⟨metadata, ?_⟩, ?_, ?_⟩, ?_⟩ <;>
    simp [List.lookup_append, lookup_unlessNone, List.lookup_cons, correlationId, originStage,
      action, priority]

/-- What is sent always has a correlation id. -/
theorem asTransportDict_ok (h : lax.asTransportDict e = .ok data) :
    lax.Dumped e data ∧ ∃ s, data.lookup "correlation_id" = some (.str s) := by
  obtain ⟨dump, hd, h⟩ := bind_ok.mp h
  obtain ⟨dumped, correlationId⟩ := modelDump_ok hd
  obtain rfl := Except.ok.inj h
  cases given : e.correlationId with
  | some s =>
    rw [given] at correlationId
    have has : dump.has "correlation_id" = true := by
      rw [← Fields.lookup_isSome, correlationId]
      rfl
    rw [if_pos has]
    exact ⟨dumped, s, correlationId⟩
  | none =>
    rw [given] at correlationId
    have has : ¬dump.has "correlation_id" = true := by
      rw [← Fields.lookup_isSome, correlationId]
      simp
    rw [if_neg has]
    exact ⟨dumped.set_correlationId, _, Fields.lookup_set_self⟩

/-! ## Validation -/

/-- What the fields of a dictionary are validated to. -/
structure Validates (lax : Lax) (fresh : Fresh) (data : Fields Value) (e : Envelope) : Prop where
  taskId : (data.lookup "task_id").bind lax.str = some e.taskId
  messageId : lax.textOr fresh.uuid (data.lookup "message_id") = some e.messageId
  correlationId : lax.optionalText (data.lookup "correlation_id") = some e.correlationId
  stage : (data.lookup "stage").bind lax.str = some e.stage
  originStage : lax.optionalText (data.lookup "origin_stage") = some e.originStage
  action : lax.optionalText (data.lookup "action") = some e.action
  payload : mappingOr (data.lookup "payload") = some e.payload
  metadata : mappingOr (data.lookup "meta") = some e.metadata
  priority : lax.optionalPriority (data.lookup "priority") = some e.priority
  specVersion : lax.textOr "1.0" (data.lookup "spec_version") = some e.specVersion
  extra : e.extra = data.filter fun entry => entry.1 ∉ envelopeFields

theorem modelValidate_iff : lax.modelValidate fresh data = some e ↔ lax.Validates fresh data e := by
  simp only [modelValidate, Option.bind_eq_bind, Option.bind_eq_some_iff, Option.pure_def,
    Option.some.injEq]
  constructor
  · rintro ⟨_, h₁, _, h₂, _, h₃, _, h₄, _, h₅, _, h₆, _, h₇, _, h₈, _, h₉, _, h, rfl⟩
    exact ⟨Option.bind_eq_some_iff.mpr h₁, h₂, h₃, Option.bind_eq_some_iff.mpr h₄, h₅, h₆, h₇, h₈,
      h₉, h, rfl⟩
  · rintro ⟨h₁, h₂, h₃, h₄, h₅, h₆, h₇, h₈, h₉, h, hx⟩
    refine ⟨_, Option.bind_eq_some_iff.mp h₁, _, h₂, _, h₃, _, Option.bind_eq_some_iff.mp h₄, _,
      h₅, _, h₆, _, h₇, _, h₈, _, h₉, _, h, ?_⟩
    cases e
    cases hx
    rfl

end Lax

end Relayna.Contracts.Workflow
