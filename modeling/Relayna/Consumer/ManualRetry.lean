import Relayna.Consumer.AliasPassage
import Relayna.Foundation.Names

/-!
# `manual_retry` and the task it hands over

A handler may ask that its task be published again, with some fields replaced. `manual_retry`
reads the raw payload of its context as a task, replaces the fields and leaves the request on the
context. The lineage travels in headers of its own, beside those of the automatic retries, which
the new message does not have.
-/
namespace Relayna.Contracts.Fields

variable {β : Type} {d e : Fields β} {key other : String} {v : β}

/-- To set a key if there is a value for it. -/
def setGiven (d : Fields β) (key : String) (v : Option β) : Fields β :=
  match v with
  | none => d
  | some v => d.set key v

theorem lookup_setGiven {v : Option β} (kept : v.isSome = true → other ≠ key) :
    (d.setGiven key v).lookup other = d.lookup other := by
  cases v with
  | none => rfl
  | some v => exact lookup_set_ne (kept rfl)

end Relayna.Contracts.Fields

namespace Python.Dict

variable {d : Dict} {key other : String}

/-- To set a key if there is a value for it. -/
def setGiven (d : Dict) (key : String) (v : Option Value) : Dict :=
  match v with
  | none => d
  | some v => d.set key v

theorem set_apply {v : Value} : (d.set key v) other = if other = key then some v else d other :=
  Function.update_apply d key (some v) other

theorem setGiven_apply {v : Option Value} :
    (d.setGiven key v) other = if other = key then v.or (d key) else d other := by
  cases v with
  | none =>
    split
    · next same => rw [same, Option.none_or, setGiven]
    · rfl
  | some v =>
    rw [setGiven, set_apply]
    rfl

end Python.Dict

namespace Relayna.Consumer

open Python Contracts Rabbitmq Failing

/-- The arguments of `manual_retry`. -/
structure ManualRetryArgs where
  taskType : Option String := none
  payload : Option (Fields Value) := none
  payloadMerge : Option (Fields Value) := none
  service : Option String := none
  correlationId : Option String := none
  priority : Option Int := none
  reason : Option String := none
  message : Option String := none
  statusMeta : Option (Fields Value) := none
  headers : Option (Fields Value) := none
  extraFields : Option (Fields Value) := none

/-- The keys that `extra_fields` may not have, sorted. -/
def reservedFields : List String :=
  ["correlation_id", "created_at", "payload", "priority", "service", "spec_version", "task_id",
    "task_type"]

def manualRetryHeaderNames : List String :=
  ["x-relayna-manual-retry-count", "x-relayna-manual-retry-from-task-type",
    "x-relayna-manual-retry-source-consumer", "x-relayna-manual-retry-reason"]

/-- `_manual_retry_headers`. -/
def manualRetryHeaders (headers : Dict) (manualRetryCount : Int) (previousTaskType : Option String)
    (sourceConsumer : String) (reason : Option String) (taskId : String)
    (extraHeaders : Fields Value) : Dict :=
  let kept : Dict := fun key =>
    if key ∈ retryHeaderNames ++ manualRetryHeaderNames then none else headers key
  let forwarded := kept
    |>.set "task_id" (.str taskId)
    |>.set "x-relayna-manual-retry-count" (.int manualRetryCount)
    |>.set "x-relayna-manual-retry-source-consumer" (.str sourceConsumer)
    |>.setGiven "x-relayna-manual-retry-from-task-type"
      ((previousTaskType.bind nonEmpty).map .str)
    |>.setGiven "x-relayna-manual-retry-reason" ((reason.bind nonEmpty).map .str)
  extraHeaders.foldl (fun headers (key, v) => headers.set key v) forwarded

/-- `_manual_retry_status_meta`. -/
def manualRetryStatusMeta (manualRetryCount : Int) (previousTaskType : Option String)
    (sourceConsumer : String) (reason targetTaskType : Option String)
    (extraMeta : Fields Value) : Fields Value :=
  let manualRetry : Fields Value :=
    [("count", .int manualRetryCount), ("source_consumer", .str sourceConsumer)]
  let manualRetry :=
    manualRetry.setGiven "previous_task_type" ((previousTaskType.bind nonEmpty).map .str)
  let manualRetry := manualRetry.setGiven "reason" ((reason.bind nonEmpty).map .str)
  let manualRetry :=
    manualRetry.setGiven "target_task_type" ((targetTaskType.bind nonEmpty).map .str)
  match extraMeta.lookup "manual_retry" with
  | some (.dict existing) => extraMeta.set "manual_retry" (.dict (manualRetry.update existing))
  | _ => extraMeta.set "manual_retry" (.dict manualRetry)

/-- `model_validate` and `model_dump(mode="json", exclude_none=True)`. -/
def redump (codec : Codec) (fresh : Fresh) (fields : Fields Value) : Except Exc (Fields Value) :=
  match codec.validateTask fresh (.dict fields) with
  | none => .error (.error "ValidationError" "")
  | some envelope =>
    match codec.dumpTask envelope with
    | .ok (.dict dumped) => .ok dumped
    | .ok _ => .ok []
    | .error e => .error (.error e.1 e.2)

namespace TaskContext

variable (context : TaskContext) (args : ManualRetryArgs)

/-- The current task of `manual_retry`. -/
def currentTask (codec : Codec) (fresh : Fresh) : Except Exc (Fields Value) :=
  let refused := valueError "manual_retry requires a task envelope context"
  if context.isTaskContext then
    match context.rawPayload with
    | .dict fields =>
      match redump codec fresh fields with
      | .error (.error "ValidationError" _) => .error refused
      | current => current
    | _ => .error refused
  else .error refused

/-- `next_task["task_type"] = resolved_task_type`. -/
def setTaskType (nextTask : Fields Value) : Option String → Except Exc (Fields Value)
  | none => .ok nextTask
  | some taskType =>
    if strip taskType = "" then
      .error (valueError "task_type must not be empty when provided")
    else .ok (nextTask.set "task_type" (.str (strip taskType)))

/-- `dict(next_task.get("payload") or {})`. -/
def payloadOf (nextTask : Fields Value) : Fields Value :=
  match nextTask.lookup "payload" with
  | some (.dict payload) => payload
  | _ => []

def setPayload (nextTask : Fields Value) : Fields Value :=
  match args.payload, args.payloadMerge with
  | some payload, _ => nextTask.set "payload" (.dict payload)
  | none, some payloadMerge =>
    nextTask.set "payload" (.dict ((payloadOf nextTask).update payloadMerge))
  | none, none => nextTask

def setExtraFields (nextTask : Fields Value) : Option (Fields Value) → Except Exc (Fields Value)
  | none => .ok nextTask
  | some providedFields =>
    let conflicting := reservedFields.filter providedFields.has
    let conflicts := String.intercalate ", " conflicting
    if conflicting = [] then .ok (nextTask.update providedFields)
    else .error (valueError s!"extra_fields contains reserved key(s): {conflicts}")

/-- The fields of the next task before they are validated. -/
def nextTask (current : Fields Value) : Except Exc (Fields Value) := do
  let named := current.set "task_id" (.str context.taskId)
  let correlated := named.set "correlation_id"
    ((((args.correlationId.bind nonEmpty).or (context.correlationId.bind nonEmpty)).map .str).getD
      ((current.lookup "correlation_id").getD .none))
  let typed ← setTaskType (correlated.setGiven "priority" (args.priority.map .int)) args.taskType
  let served := typed.setGiven "service" (args.service.map .str)
  setExtraFields (setPayload args served) args.extraFields

/-- `manual_retry`, up to the raise of `_ManualRetryRequested`. The two validations draw `fresh`
and `again`. -/
def manualRetry (codec : Codec) (fresh again : Fresh) : Except Exc ManualRetryRequest :=
  if args.payload.isSome && args.payloadMerge.isSome then
    .error (valueError "Pass either payload or payload_merge, not both.")
  else do
    let current ← context.currentTask codec fresh
    let nextTask ← context.nextTask args current
    let prepared ← redump codec again nextTask
    let nextCount := context.manualRetryCount + 1
    let previousTaskType := nonEmpty (codec.text.stripped (current.lookup "task_type"))
    let targetTaskType := nonEmpty (codec.text.stripped (prepared.lookup "task_type"))
    return {
      task := .dict prepared
      headers := manualRetryHeaders context.headers nextCount previousTaskType
        context.consumerName args.reason context.taskId (args.headers.getD [])
      statusMessage := ((args.message.bind nonEmpty).or (args.reason.bind nonEmpty)).getD
        "Task handed off for manual retry."
      statusMeta := manualRetryStatusMeta nextCount previousTaskType context.consumerName
        args.reason targetTaskType (args.statusMeta.getD []) }

end TaskContext

/-- `publish_task(request.task, headers=request.headers)`. -/
def publishTask (p : TaskPublisher) (fresh : Fresh) (request : ManualRetryRequest) :
    Except Exc Outgoing := do
  let fields := match request.task with
    | .dict fields => fields
    | _ => []
  let taskDict ← prepareTaskPayload p fresh fields
  let message ← p.publishPreparedTask taskDict
  return { message with headers := fun key => (request.headers key).or (message.headers key) }

section Headers

variable {headers : Dict} {count : Int} {previousTaskType reason : Option String}
  {sourceConsumer taskId key : String} {extraHeaders : Fields Value}

theorem foldl_set_of_notMem (absent : key ∉ extraHeaders.map Prod.fst) :
    (extraHeaders.foldl (fun headers (key, v) => headers.set key v) headers) key =
      headers key := by
  obtain same | ⟨v, hv, -⟩ := foldl_set_apply headers extraHeaders key
  · exact same
  · exact absurd (List.mem_map_of_mem hv) absent

/-- The lineage, as the next consumer reads it. -/
structure Written (count : Int) (previousTaskType : Option String) (sourceConsumer : String)
    (reason : Option String) (headers : Dict) : Prop where
  count : headers "x-relayna-manual-retry-count" = some (.int count)
  previousTaskType : headers "x-relayna-manual-retry-from-task-type" =
    (previousTaskType.bind nonEmpty).map .str
  sourceConsumer : headers "x-relayna-manual-retry-source-consumer" = some (.str sourceConsumer)
  reason : headers "x-relayna-manual-retry-reason" = (reason.bind nonEmpty).map .str
  attempt : headers "x-relayna-retry-attempt" = none

theorem Written.congr {copied : Dict}
    (h : Written count previousTaskType sourceConsumer reason headers)
    (same : ∀ key ∈ retryHeaderNames ++ manualRetryHeaderNames, copied key = headers key) :
    Written count previousTaskType sourceConsumer reason copied where
  count := (same _ (by decide)).trans h.count
  previousTaskType := (same _ (by decide)).trans h.previousTaskType
  sourceConsumer := (same _ (by decide)).trans h.sourceConsumer
  reason := (same _ (by decide)).trans h.reason
  attempt := (same _ (by decide)).trans h.attempt

variable (plain : ∀ key ∈ "task_id" :: retryHeaderNames ++ manualRetryHeaderNames,
  key ∉ extraHeaders.map Prod.fst)

include plain in
theorem manualRetryHeaders_written :
    Written count previousTaskType sourceConsumer reason
      (manualRetryHeaders headers count previousTaskType sourceConsumer reason taskId
        extraHeaders) := by
  unfold manualRetryHeaders
  constructor
  all_goals
    rw [foldl_set_of_notMem (plain _ (by decide))]
    simp [Dict.set_apply, Dict.setGiven_apply, retryHeaderNames, manualRetryHeaderNames]

include plain in
theorem manualRetryHeaders_taskId :
    manualRetryHeaders headers count previousTaskType sourceConsumer reason taskId extraHeaders
      "task_id" = some (.str taskId) := by
  unfold manualRetryHeaders
  rw [foldl_set_of_notMem (plain _ (by decide))]
  simp [Dict.set_apply, Dict.setGiven_apply]

/-- Every other header is forwarded. -/
theorem manualRetryHeaders_of_notMem (absent : key ∉ extraHeaders.map Prod.fst)
    (other : key ∉ "task_id" :: retryHeaderNames ++ manualRetryHeaderNames) :
    manualRetryHeaders headers count previousTaskType sourceConsumer reason taskId extraHeaders
      key = headers key := by
  unfold manualRetryHeaders
  rw [foldl_set_of_notMem absent]
  simp only [retryHeaderNames, manualRetryHeaderNames, List.cons_append, List.nil_append,
    List.mem_cons, List.not_mem_nil, or_false, not_or] at other
  simp [Dict.set_apply, Dict.setGiven_apply, retryHeaderNames, manualRetryHeaderNames, other]

end Headers

/-! ## The fields that are carried over -/

/-- The task fields that the arguments replace, `correlation_id` aside. -/
def ManualRetryArgs.overridden (args : ManualRetryArgs) : List String :=
  (args.priority.map fun _ => "priority").toList ++ (args.taskType.map fun _ => "task_type").toList
    ++ (args.service.map fun _ => "service").toList
    ++ (args.payload.map fun _ => "payload").toList
    ++ (args.payloadMerge.map fun _ => "payload").toList
    ++ (args.extraFields.getD []).map Prod.fst

namespace TaskContext

variable {context : TaskContext} {args : ManualRetryArgs} {current next fields : Fields Value}
  {key : String}

theorem setTaskType_ok {taskType : Option String} (h : setTaskType fields taskType = .ok next) :
    next = fields.setGiven "task_type" (taskType.map fun s => .str (strip s)) := by
  cases taskType with
  | none => exact (Except.ok.inj h).symm
  | some s =>
    simp only [setTaskType] at h
    split at h
    · cases h
    · exact (Except.ok.inj h).symm

theorem lookup_setPayload (payload : args.payload.isSome = true → key ≠ "payload")
    (payloadMerge : args.payloadMerge.isSome = true → key ≠ "payload") :
    (setPayload args fields).lookup key = fields.lookup key := by
  unfold setPayload
  cases hp : args.payload with
  | some given => exact Fields.lookup_set_ne (payload (by rw [hp]; rfl))
  | none =>
    cases hm : args.payloadMerge with
    | some given => exact Fields.lookup_set_ne (payloadMerge (by rw [hm]; rfl))
    | none => rfl

theorem setExtraFields_ok {extra : Option (Fields Value)}
    (h : setExtraFields fields extra = .ok next) :
    (∀ key ∈ reservedFields, key ∉ (extra.getD []).map Prod.fst) ∧
      ∀ key, key ∉ (extra.getD []).map Prod.fst → next.lookup key = fields.lookup key := by
  cases extra with
  | none =>
    obtain rfl := Except.ok.inj h
    exact ⟨fun _ _ => List.not_mem_nil, fun _ _ => rfl⟩
  | some provided =>
    simp only [setExtraFields] at h
    split at h
    · next none_ =>
      obtain rfl := Except.ok.inj h
      refine ⟨fun key reserved member => ?_, fun key => Fields.lookup_update_of_notMem⟩
      obtain ⟨entry, he, rfl⟩ := List.mem_map.mp member
      exact List.filter_eq_nil_iff.mp none_ _ reserved (Fields.has_iff.mpr ⟨entry, he, rfl⟩)
    · cases h

/-- The next task is the current one under the same `task_id`, with a `correlation_id` and with
what the arguments replace. -/
theorem nextTask_ok (h : context.nextTask args current = .ok next) :
    next.lookup "task_id" = some (.str context.taskId) ∧
      next.lookup "correlation_id" = some
        ((((args.correlationId.bind nonEmpty).or (context.correlationId.bind nonEmpty)).map
          .str).getD ((current.lookup "correlation_id").getD .none)) ∧
      ∀ key ∉ args.overridden, key ≠ "task_id" → key ≠ "correlation_id" →
        next.lookup key = current.lookup key := by
  obtain ⟨typed, htyped, h⟩ := bind_ok.mp h
  obtain ⟨unreserved, others⟩ := setExtraFields_ok h
  have kept (key : String) (hk : key ∉ args.overridden) : next.lookup key =
      ((current.set "task_id" (.str context.taskId)).set "correlation_id"
        ((((args.correlationId.bind nonEmpty).or (context.correlationId.bind nonEmpty)).map
          .str).getD ((current.lookup "correlation_id").getD .none))).lookup key := by
    simp only [ManualRetryArgs.overridden, List.mem_append, not_or] at hk
    obtain ⟨⟨⟨⟨⟨priority, taskType⟩, service⟩, payload⟩, payloadMerge⟩, extra⟩ := hk
    have differs {α : Type} {given : Option α} {name : String}
        (absent : key ∉ (given.map fun _ => name).toList) (some_ : given.isSome = true) :
        key ≠ name := by
      obtain ⟨a, rfl⟩ := Option.isSome_iff_exists.mp some_
      simpa using absent
    rw [others key extra, lookup_setPayload (differs payload) (differs payloadMerge),
      Fields.lookup_setGiven fun given => differs service (by simpa using given),
      setTaskType_ok htyped,
      Fields.lookup_setGiven fun given => differs taskType (by simpa using given),
      Fields.lookup_setGiven fun given => differs priority (by simpa using given)]
  have reserved (key : String) (hr : key ∈ reservedFields) (free : key ∉ ["priority", "task_type",
      "service", "payload"]) : key ∉ args.overridden := by
    have := unreserved key hr
    simp only [List.mem_cons, List.not_mem_nil, or_false, not_or] at free
    simp only [ManualRetryArgs.overridden, List.mem_append, not_or, Option.mem_toList,
      Option.map_eq_some_iff, not_exists, not_and]
    exact ⟨⟨⟨⟨⟨fun _ _ h => free.1 h.symm, fun _ _ h => free.2.1 h.symm⟩,
      fun _ _ h => free.2.2.1 h.symm⟩, fun _ _ h => free.2.2.2 h.symm⟩,
      fun _ _ h => free.2.2.2 h.symm⟩, this⟩
  refine ⟨?_, ?_, fun key hk taskId correlationId => ?_⟩
  · rw [kept _ (reserved _ (by decide) (by decide)), Fields.lookup_set_ne (by decide),
      Fields.lookup_set_self]
  · rw [kept _ (reserved _ (by decide) (by decide)), Fields.lookup_set_self]
  · rw [kept key hk, Fields.lookup_set_ne correlationId, Fields.lookup_set_ne taskId]

end TaskContext

/-! ## What becomes of a dumped field -/

/-- What pydantic and the JSON parsers are relied on for with tasks: a dump has the texts of the
task, a text is validated to itself, a field with a value that has been dumped is dumped with it
again, and what has been serialised is parsed to itself. -/
structure TaskModel (codec : Codec) : Prop where
  dumped : ∀ {e v}, codec.dumpTask e = .ok v → ∃ fields, v = .dict fields ∧
    fields.lookup "task_id" = some (.str e.taskId) ∧
    fields.lookup "task_type" = e.taskType.map .str ∧
    fields.lookup "correlation_id" = e.correlationId.map .str
  taskId : ∀ {fresh fields e}, codec.validateTask fresh (.dict fields) = some e →
    ∃ v, fields.lookup "task_id" = some v ∧ ∀ s, v = .str s → e.taskId = s
  correlationId : ∀ {fresh fields e s}, codec.validateTask fresh (.dict fields) = some e →
    fields.lookup "correlation_id" = some (.str s) → e.correlationId = some s
  texts : ∀ {fresh fresh' v e e'}, codec.validateTask fresh v = some e →
    codec.validateTask fresh' v = some e' → e'.taskId = e.taskId ∧ e'.taskType = e.taskType
  settled : ∀ {fresh fresh' given given' out out' e e' key v},
    codec.validateTask fresh (.dict given) = some e → codec.dumpTask e = .ok (.dict out) →
    codec.validateTask fresh' (.dict given') = some e' →
    codec.dumpTask e' = .ok (.dict out') →
    out.lookup key = some v → given'.lookup key = some v → out'.lookup key = some v
  parsed : ∀ {e v body}, codec.dumpTask e = .ok v → codec.toJson v = .ok body →
    codec.parseTransportJson body = .ok v

/-- `out` is a dump of the task that `given` is validated to. -/
def Dumped (codec : Codec) (given out : Fields Value) : Prop :=
  ∃ fresh e, codec.validateTask fresh (.dict given) = some e ∧ codec.dumpTask e = .ok (.dict out)

section Passage

variable {codec : Codec} {given given' out out' event : Fields Value} {key s : String} {v : Value}
  {aliasConfig : Option ContractAliasConfig} {text : Text}

theorem redump_ok (laws : TaskModel codec) {fresh : Fresh}
    (h : redump codec fresh given = .ok out) : Dumped codec given out := by
  unfold redump at h
  split at h
  · cases h
  · rename_i e valid
    cases hd : codec.dumpTask e with
    | error exc =>
      rw [hd] at h
      cases h
    | ok v =>
      obtain ⟨fields, rfl, -⟩ := laws.dumped hd
      rw [hd] at h
      obtain rfl := Except.ok.inj h
      exact ⟨fresh, e, valid, hd⟩

theorem Dumped.texts (laws : TaskModel codec) (h : Dumped codec given out) :
    ∃ fresh e, codec.validateTask fresh (.dict given) = some e ∧
      out.lookup "task_id" = some (.str e.taskId) ∧
      out.lookup "task_type" = e.taskType.map .str := by
  obtain ⟨fresh, e, valid, dump⟩ := h
  obtain ⟨fields, same, taskId, taskType, -⟩ := laws.dumped dump
  obtain rfl := Value.dict.inj same
  exact ⟨fresh, e, valid, taskId, taskType⟩

theorem Dumped.taskId (laws : TaskModel codec) (h : Dumped codec given out)
    (text : given.lookup "task_id" = some (.str s)) : out.lookup "task_id" = some (.str s) := by
  obtain ⟨fresh, e, valid, taskId, -⟩ := h.texts laws
  obtain ⟨v, hv, itself⟩ := laws.taskId valid
  rw [taskId, itself s (Option.some.inj (hv.symm.trans text))]

theorem Dumped.correlationId (laws : TaskModel codec) (h : Dumped codec given out)
    (text : given.lookup "correlation_id" = some (.str s)) :
    out.lookup "correlation_id" = some (.str s) := by
  obtain ⟨fresh, e, valid, dump⟩ := h
  obtain ⟨fields, same, -, -, correlationId⟩ := laws.dumped dump
  rw [Value.dict.inj same, correlationId, laws.correlationId valid text, Option.map_some]

theorem Dumped.again (laws : TaskModel codec) (h : Dumped codec given out)
    (h' : Dumped codec given' out') (dumped : out.lookup key = some v)
    (taken : given'.lookup key = some v) : out'.lookup key = some v := by
  obtain ⟨fresh, e, valid, dump⟩ := h
  obtain ⟨fresh', e', valid', dump'⟩ := h'
  exact laws.settled valid dump valid' dump' dumped taken

/-- A validated payload has the `task_id` that it had before it was normalised. -/
theorem TaskModel.normalized_taskId (laws : TaskModel codec) {fresh : Fresh} {e : TaskEnvelope}
    (valid : codec.validateTask fresh
      (.dict (normalizeContractAliases codec.text event aliasConfig)) = some e)
    (text : event.lookup "task_id" = some (.str s)) :
    (normalizeContractAliases codec.text event aliasConfig).lookup "task_id" = some (.str s) ∧
      e.taskId = s := by
  obtain ⟨v, hv, itself⟩ := laws.taskId valid
  have has : (normalizeContractAliases codec.text event aliasConfig).has "task_id" = true := by
    rw [← Fields.lookup_isSome, hv, Option.isSome_some]
  have same := lookup_normalize_taskId text has
  exact ⟨same, itself s (Option.some.inj (hv.symm.trans same))⟩

end Passage

/-! ## What is asked for and what is published -/

section Requests

variable {codec : Codec} {context : TaskContext} {args : ManualRetryArgs} {fields : Fields Value}
  {request : ManualRetryRequest}

theorem TaskContext.currentTask_ok (laws : TaskModel codec) {fresh : Fresh}
    {current : Fields Value} (raw : context.rawPayload = .dict fields)
    (h : context.currentTask codec fresh = .ok current) : Dumped codec fields current := by
  unfold currentTask at h
  simp only [raw] at h
  split at h
  · split at h
    · cases h
    · exact redump_ok laws h
  · cases h

theorem TaskContext.manualRetry_ok (laws : TaskModel codec) {fresh again : Fresh}
    (raw : context.rawPayload = .dict fields)
    (h : context.manualRetry args codec fresh again = .ok request) :
    ∃ current next prepared, Dumped codec fields current ∧
      context.nextTask args current = .ok next ∧ Dumped codec next prepared ∧
      request.task = .dict prepared ∧
      request.headers = manualRetryHeaders context.headers (context.manualRetryCount + 1)
        (nonEmpty (codec.text.stripped (current.lookup "task_type"))) context.consumerName
        args.reason context.taskId (args.headers.getD []) := by
  unfold manualRetry at h
  split at h
  · cases h
  · obtain ⟨current, hcurrent, h⟩ := bind_ok.mp h
    obtain ⟨next, hnext, h⟩ := bind_ok.mp h
    obtain ⟨prepared, hprepared, h⟩ := bind_ok.mp h
    obtain rfl := Except.ok.inj h
    exact ⟨current, next, prepared, currentTask_ok laws raw hcurrent, hnext,
      redump_ok laws hprepared, rfl, rfl⟩

/-- What is published, and where its headers come from. -/
theorem publishTask_ok {p : TaskPublisher} (laws : TaskModel p.codec) {fresh : Fresh}
    {message : Outgoing} {prepared : Fields Value} (task : request.task = .dict prepared)
    (h : publishTask p fresh request = .ok message) :
    ∃ sent, Dumped p.codec (normalizeContractAliases p.codec.text prepared p.aliasConfig) sent ∧
      p.codec.parseTransportJson message.body = .ok (.dict sent) ∧
      ∀ key, key ≠ "task_id" ∨ (request.headers key).isSome = true →
        message.headers key = request.headers key := by
  unfold publishTask at h
  simp only [task] at h
  obtain ⟨taskDict, htask, h⟩ := bind_ok.mp h
  obtain ⟨single, hsingle, h⟩ := bind_ok.mp h
  obtain rfl := Except.ok.inj h
  obtain ⟨e, valid, dumped⟩ := prepareTaskPayload_ok htask
  obtain ⟨sent, rfl, -⟩ := laws.dumped dumped
  obtain ⟨json, -⟩ := publishPreparedTask_ok hsingle
  refine ⟨sent, ⟨fresh, e, valid, dumped⟩, laws.parsed dumped json, fun key other => ?_⟩
  change (request.headers key).or (single.headers key) = request.headers key
  obtain ⟨_, -, hsingle⟩ := bind_ok.mp hsingle
  obtain ⟨_, -, hsingle⟩ := bind_ok.mp hsingle
  obtain rfl := Except.ok.inj hsingle
  obtain ne | given := other
  · have absent : (key == "task_id") = false := beq_eq_false_iff_ne.mpr ne
    simp [List.lookup_cons, absent]
  · obtain ⟨v, hv⟩ := Option.isSome_iff_exists.mp given
    rw [hv, Option.some_or]

end Requests

end Relayna.Consumer
