import Relayna.Consumer.Shipping
import Relayna.Consumer.Task
import Relayna.Contracts.AliasRoundTrip
import Relayna.Contracts.Tabulated
import Relayna.Foundation.Failing
import Relayna.Rabbitmq.Publish

/-!
# A batch envelope and the messages it stands for

A worker that receives a batch envelope puts each of its tasks on the source queue as a message
of its own. These messages are compared, item by item, with those that `publish_tasks` sends for
the same tasks one by one.

What pydantic does is a hypothesis, `Pydantic` and `Rereads`: a dump has the fields of the model,
and what has been dumped, serialised and validated again has the same dump. The worker renames the
aliased fields of what the publisher has renamed already; `FindsNothing` says that nothing is left
for it to do.
-/
namespace Relayna.Consumer

open Python Contracts Await Rabbitmq Failing

/-! ## What the models promise -/

def batchFields : List String := ["batch_id", "tasks", "meta", "created_at", "spec_version"]

/-- The fields of `BatchTaskEnvelope` that have a default. -/
def defaultedFields : List String := ["meta", "created_at", "spec_version"]

/-- The fields of a batch envelope are left, or at most those with a default are gone. -/
def KeepsBatch (fields left : Fields Value) : Prop :=
  ∀ key ∈ batchFields, left.lookup key = fields.lookup key ∨
    key ∈ defaultedFields ∧ left.lookup key = none

/-- A task that has been dumped and validated again. -/
structure SameTask (codec : Codec) (task again : TaskEnvelope) : Prop where
  taskId : again.taskId = task.taskId
  correlationId : again.correlationId = task.correlationId
  dump : codec.dumpTask again = codec.dumpTask task

/-- What `model_dump(mode="json", exclude_none=True)` is relied on for. -/
structure Pydantic (p : TaskPublisher) : Prop where
  task : ∀ {e v}, p.codec.dumpTask e = .ok v → ∃ fields, v = .dict fields ∧
    (fields.map Prod.fst).Nodup ∧ fields.lookup "task_id" = some (.str e.taskId) ∧
    fields.lookup "correlation_id" = e.correlationId.map .str
  batch : ∀ {fresh batchId es batchMeta v}, p.dumpBatch fresh batchId es batchMeta = .ok v →
    ∃ (fields : Fields Value) (vs : List Value), v = .dict fields ∧
      (fields.map Prod.fst).Nodup ∧ (∀ key, fields.has key = true → key ∈ batchFields) ∧
      fields.lookup "batch_id" = some (.str batchId) ∧ fields.lookup "tasks" = some (.list vs) ∧
      List.Forall₂ (fun e v => p.codec.dumpTask e = .ok v) es vs

/-- What `model_validate`, `to_json` and `from_json` make of a dumped batch, also of one that has
lost fields with a default and has others besides. -/
structure Rereads (p : TaskPublisher) : Prop where
  validated : ∀ {fresh batchId es batchMeta} {fields left : Fields Value} (fresh' : Fresh),
    p.dumpBatch fresh batchId es batchMeta = .ok (.dict fields) → (left.map Prod.fst).Nodup →
    KeepsBatch fields left → ∃ es', p.codec.validateBatch fresh' (.dict left) =
      some ⟨batchId, es'⟩ ∧ List.Forall₂ (SameTask p.codec) es es'
  parsed : ∀ {fresh batchId es batchMeta v body}, p.dumpBatch fresh batchId es batchMeta = .ok v →
    p.codec.toJson v = .ok body → p.codec.parseTransportJson body = .ok v

/-- The worker renames the fields of a batch envelope when it parses the message, and once more
when it validates the batch. The envelope is still one after that, and no task has a field under
the name of an alias. -/
structure FindsNothing (p : TaskPublisher) (envelopes : List TaskEnvelope)
    (fields : Fields Value) : Prop where
  once : KeepsBatch fields (normalizeContractAliases p.codec.text fields p.aliasConfig)
  twice : KeepsBatch fields (normalizeContractAliases p.codec.text
    (normalizeContractAliases p.codec.text fields p.aliasConfig) p.aliasConfig)
  tasks : ∀ e ∈ envelopes, ∀ task : Fields Value, p.codec.dumpTask e = .ok (.dict task) →
    ∀ entry ∈ aliasMap p.aliasConfig, task.has entry.2 = false

/-- The laws are not about aliases. -/
theorem Pydantic.withAliases {p : TaskPublisher} (laws : Pydantic p)
    (aliasConfig : Option ContractAliasConfig) : Pydantic { p with aliasConfig } :=
  ⟨laws.task, laws.batch⟩

theorem Rereads.withAliases {p : TaskPublisher} (laws : Rereads p)
    (aliasConfig : Option ContractAliasConfig) : Rereads { p with aliasConfig } :=
  ⟨laws.validated, laws.parsed⟩

variable {p : TaskPublisher} {fresh : Nat → Fresh} {tasks : List (Fields Value)}
  {envelopes : List TaskEnvelope}

/-- One task on both ways. -/
structure Passage (p : TaskPublisher) where
  task : TaskEnvelope
  again : TaskEnvelope
  same : SameTask p.codec task again
  payload : Value
  dumped : p.codec.dumpTask task = .ok payload
  single : Outgoing
  published : p.publishPreparedTask payload = .ok single

theorem exists_passages {again : List TaskEnvelope} {payloads : List Value}
    {singles : List Outgoing} (same : List.Forall₂ (SameTask p.codec) envelopes again)
    (dumped : List.Forall₂ (fun e v => p.codec.dumpTask e = .ok v) envelopes payloads)
    (published : List.Forall₂ (fun v m => p.publishPreparedTask v = .ok m) payloads singles) :
    ∃ passages : List (Passage p), passages.map Passage.task = envelopes ∧
      passages.map Passage.again = again ∧ passages.map Passage.single = singles := by
  induction same generalizing payloads singles with
  | nil =>
    cases dumped
    cases published
    exact ⟨[], rfl, rfl, rfl⟩
  | cons h _ ih =>
    cases dumped with
    | cons hd dumped =>
      cases published with
      | cons hp published =>
        obtain ⟨passages, rfl, rfl, rfl⟩ := ih dumped published
        exact ⟨⟨_, _, h, _, hd, _, hp⟩ :: passages, rfl, rfl, rfl⟩

section Publisher

variable {individual : List Outgoing} {batchId : String} {batchMeta : Fields Value}
  {batch : Outgoing}

theorem publishPreparedTask_ok {payload : Value} {single : Outgoing}
    (h : p.publishPreparedTask payload = .ok single) :
    p.codec.toJson payload = .ok single.body ∧
      single.correlationId = correlationIdOf p.codec.text payload ∧
      single.priority = priorityOf payload := by
  obtain ⟨_, -, h⟩ := bind_ok.mp h
  obtain ⟨body, hj, h⟩ := bind_ok.mp h
  obtain rfl := Except.ok.inj h
  exact ⟨mapError_ok.mp hj, rfl, rfl⟩

theorem publishIndividually_ok (prepared : p.prepareTasks fresh tasks = .ok envelopes)
    (h : p.publishIndividually fresh tasks = .ok individual) :
    ∃ payloads, List.Forall₂ (fun e v => p.codec.dumpTask e = .ok v) envelopes payloads ∧
      List.Forall₂ (fun v m => p.publishPreparedTask v = .ok m) payloads individual := by
  obtain ⟨es, he, h⟩ := bind_ok.mp h
  obtain rfl := Except.ok.inj (prepared.symm.trans he)
  obtain ⟨payloads, hp, h⟩ := bind_ok.mp h
  exact ⟨payloads, (mapM_ok hp).imp fun _ _ => mapError_ok.mp, mapM_ok h⟩

theorem publishBatch_ok (prepared : p.prepareTasks fresh tasks = .ok envelopes)
    (h : p.publishBatch fresh tasks (some batchId) batchMeta = .ok batch) :
    ∃ v, p.dumpBatch (fresh tasks.length) batchId envelopes batchMeta = .ok v ∧
      p.codec.toJson v = .ok batch.body := by
  obtain ⟨es, he, h⟩ := bind_ok.mp h
  obtain rfl := Except.ok.inj (prepared.symm.trans he)
  obtain ⟨payloads, -, h⟩ := bind_ok.mp h
  simp only at h
  split at h
  · cases h
  · obtain ⟨v, hv, h⟩ := bind_ok.mp h
    obtain ⟨priority, -, h⟩ := bind_ok.mp h
    obtain ⟨body, hj, h⟩ := bind_ok.mp h
    obtain rfl := Except.ok.inj h
    exact ⟨v, mapError_ok.mp hv, mapError_ok.mp hj⟩

theorem validated_of_prepared (prepared : p.prepareTasks fresh tasks = .ok envelopes)
    {e : TaskEnvelope} (he : e ∈ envelopes) :
    ∃ drawn given, p.codec.validateTask drawn
      (.dict (normalizeContractAliases p.codec.text given p.aliasConfig)) = some e := by
  obtain ⟨⟨given, i⟩, -, h⟩ := exists_of_forall₂ (mapM_ok prepared) he
  change p.prepareTaskEnvelope (fresh i) given = .ok e at h
  unfold TaskPublisher.prepareTaskEnvelope at h
  split at h
  · cases h
  · rename_i e' hv
    obtain rfl := Except.ok.inj h
    exact ⟨_, _, hv⟩

/-- Nothing is renamed in a task without a field under the name of an alias. -/
theorem normalizePayload_self (laws : Pydantic p) {e : TaskEnvelope} {v : Value}
    (dumped : p.codec.dumpTask e = .ok v)
    (free : ∀ task : Fields Value, p.codec.dumpTask e = .ok (.dict task) →
      ∀ entry ∈ aliasMap p.aliasConfig, task.has entry.2 = false) :
    normalizePayload p.codec.text v p.aliasConfig = v := by
  obtain ⟨fields, rfl, once, taskId, -⟩ := laws.task dumped
  refine congrArg Value.dict (normalizeContractAliases_self once (free fields dumped) ?_)
  intro v hv
  exact Or.inr ⟨e.taskId, Option.some.inj (hv.symm.trans taskId)⟩

/-- The tasks of a batch are renamed one by one. -/
theorem normalizeBatchPayload_eq {fields left : Fields Value} {vs : List Value}
    (top : normalizeContractAliases p.codec.text fields p.aliasConfig = left)
    (once : (left.map Prod.fst).Nodup) (tasks : left.lookup "tasks" = some (.list vs))
    (items : ∀ v ∈ vs, normalizePayload p.codec.text v p.aliasConfig = v) :
    normalizeBatchPayload p.codec.text fields p.aliasConfig = left := by
  have all : vs.map (normalizePayload p.codec.text · p.aliasConfig) = vs :=
    (List.map_congr_left items).trans (List.map_id vs)
  unfold normalizeBatchPayload
  simp only [top, tasks, all]
  exact Fields.set_self once tasks

theorem KeepsBatch.lookup {fields left : Fields Value} (h : KeepsBatch fields left) {key : String}
    (mem : key ∈ batchFields) (needed : key ∉ defaultedFields) :
    left.lookup key = fields.lookup key :=
  (h key mem).resolve_right fun gone => needed gone.1

end Publisher

/-! ## The two ways compared -/

namespace TaskConsumer

variable (c : TaskConsumer) (d : Delivery)

/-- What the handler of a message with this body sees. -/
def decode (fresh : Fresh) (body : Bytes) : Option TaskEnvelope :=
  match c.codec.parseTransportJson body with
  | .error _ => none
  | .ok payload => c.codec.validateTask fresh (c.normalize payload)

/-- The message of a batch item beside the one published for the task alone. -/
structure SameItem (batchId : String) (size index : Nat) (item single : Outgoing) : Prop where
  decoded : ∀ fresh, c.decode fresh item.body = c.decode fresh single.body
  correlationId : item.correlationId = single.correlationId
  priority : item.priority = single.priority
  batchId : item.headers "batch_id" = some (.str batchId)
  batchIndex : item.headers "batch_index" = some (.int index)
  batchSize : item.headers "batch_size" = some (.int size)

def SameItems (batchId : String) (items singles : List Outgoing) : Prop :=
  items.length = singles.length ∧ ∀ index item single, items[index]? = some item →
    singles[index]? = some single → c.SameItem batchId singles.length index item single

end TaskConsumer

/-- The task has no priority, and a text that identifies it. -/
structure Survives (p : TaskPublisher) (task : TaskEnvelope) : Prop where
  priority : ∀ v, p.codec.dumpTask task = .ok v → priorityOf v = none
  named : task.taskId ≠ "" ∨ task.correlationId.bind nonEmpty ≠ none

namespace Passage

variable (x : Passage p) (d : Delivery) (batchId : String) (size index : Nat)

/-- What the worker sends for the task. -/
def item : Outgoing where
  body := x.single.body
  correlationId := orText x.task.correlationId (some x.task.taskId)
  headers := fun key => List.lookup key
    [("task_id", .str x.task.taskId), ("batch_id", .str batchId), ("batch_index", .int index),
      ("batch_size", .int size)]
  contentType := d.metadata.contentType

variable {x d batchId size index} {c : TaskConsumer}

theorem batchItem_eq (codec : c.codec = p.codec) (tasks : List TaskEnvelope) :
    c.batchItem d ⟨batchId, tasks⟩ (x.again, index) =
      .ok (.publishRaw d.sourceQueueName (x.item d batchId tasks.length index)) := by
  unfold TaskConsumer.batchItem
  simp only
  rw [codec, x.same.dump, x.dumped]
  change (do
    let body ← (p.codec.toJson x.payload).mapError _
    _ : Except Exc Op) = _
  rw [(publishPreparedTask_ok x.published).1, x.same.taskId, x.same.correlationId]
  rfl

theorem correlationIdOf_payload (laws : Pydantic p) :
    correlationIdOf p.codec.text x.payload =
      (x.task.correlationId.bind nonEmpty).or (nonEmpty x.task.taskId) := by
  obtain ⟨fields, hf, -, taskId, correlationId⟩ := laws.task x.dumped
  have given : x.payload.get "correlation_id" = x.task.correlationId.map .str := by
    rw [hf]
    exact correlationId
  have id : x.payload.get "task_id" = some (.str x.task.taskId) := by
    rw [hf]
    exact taskId
  unfold correlationIdOf
  rw [given, id, Option.map_some, p.codec.text.str_str]
  cases x.task.correlationId with
  | none => rfl
  | some s =>
    by_cases empty : s = ""
    · simp [empty, nonEmpty, Option.filter, Value.truthy]
    · simp [empty, nonEmpty, Option.filter, Value.truthy, p.codec.text.str_str]

/-- The correlation ids agree unless there is none. -/
theorem correlationId_eq_iff (laws : Pydantic p) :
    orText x.task.correlationId (some x.task.taskId) = correlationIdOf p.codec.text x.payload ↔
      x.task.taskId ≠ "" ∨ x.task.correlationId.bind nonEmpty ≠ none := by
  rw [correlationIdOf_payload laws, orText]
  cases x.task.correlationId.bind nonEmpty with
  | none =>
    unfold nonEmpty
    split <;> simp_all
  | some s => simp

theorem sameItem_iff (laws : Pydantic p) :
    c.SameItem batchId size index (x.item d batchId size index) x.single ↔ Survives p x.task := by
  obtain ⟨-, correlationId, priority⟩ := publishPreparedTask_ok x.published
  constructor
  · intro h
    refine ⟨fun v hv => ?_, (correlationId_eq_iff laws).mp (h.correlationId.trans correlationId)⟩
    obtain rfl := Except.ok.inj (x.dumped.symm.trans hv)
    exact (h.priority.trans priority).symm
  · intro h
    refine ⟨fun _ => rfl, ?_, ?_, rfl, rfl, rfl⟩
    · exact ((correlationId_eq_iff laws).mpr h.named).trans correlationId.symm
    · exact ((h.priority _ x.dumped).symm.trans priority.symm)

end Passage

namespace TaskConsumer

variable {c : TaskConsumer} {d : Delivery}

/-- The worker takes the batch envelope for what it is and sends each of its tasks. -/
theorem handleMessageImpl_ships (policy : c.retryPolicy.isSome = true)
    (shared : c.routedTopology = false) {fields : Fields Value} {batch : BatchTaskEnvelope}
    (parsed : c.codec.parseTransportJson d.message.body = .ok (.dict fields))
    (isBatch : isBatchTaskPayload
      (normalizeContractAliases c.codec.text fields c.aliasConfig) = true)
    (valid : c.codec.validateBatch d.message.fresh (.dict (normalizeBatchPayload c.codec.text
      (normalizeContractAliases c.codec.text fields c.aliasConfig) c.aliasConfig)) = some batch)
    {queue : List (String × Outgoing)}
    (prepared : batch.tasks.zipIdx.map (c.batchItem d batch) =
      queue.map fun entry => .ok (.publishRaw entry.1 entry.2)) :
    Triple (fun t => sent t = []) (c.handleMessageImpl d) (fun _ t => (sent t).Perm queue)
      (fun _ t => (sent t).Subperm queue) := by
  have normalized : c.normalize (.dict fields) =
      .dict (normalizeContractAliases c.codec.text fields c.aliasConfig) := rfl
  have asBatch : asBatch (.dict (normalizeContractAliases c.codec.text fields c.aliasConfig)) =
      some (normalizeContractAliases c.codec.text fields c.aliasConfig) := if_pos isBatch
  have pure : c.mixedTaskTypes batch = false := by
    unfold mixedTaskTypes
    rw [shared, Bool.false_and]
  have policy : c.retryPolicy.isNone = false := by simpa using policy
  unfold handleMessageImpl
  simp only [parsed, normalized, asBatch, policy, Bool.false_eq_true, if_false]
  refine .bind ((c.emitObservation_calm _ _ (Stable.sent (· = []))).conseq (fun _ => id)
    (fun _ _ => id) fun _ t h => ?_) fun _ => ?_
  · rw [h.1]
    exact List.nil_subperm
  unfold handleBatchMessage
  simp only [valid, pure, Bool.false_eq_true, if_false]
  refine .bind (mapBounded_ships c.one_le_batchPublishConcurrency prepared) fun _ => ?_
  refine .bind (Q := fun _ t => (sent t).Perm queue) ?_ fun _ => ?_
  · refine .perform (fun t a h => ?_) fun t exc h => ?_
    · rwa [sent_snoc_of_raw rfl]
    · rw [sent_snoc_of_raw rfl]
      exact h.subperm
  · exact (c.emitObservation_calm _ _ (Stable.sent (List.Perm · queue))).conseq (fun _ => id)
      (fun _ _ => id) fun _ t h => h.1.subperm

theorem sameItems_iff (laws : Pydantic p) {passages : List (Passage p)} {batchId : String} :
    c.SameItems batchId
        (passages.zipIdx.map fun x => x.1.item d batchId passages.length x.2)
        (passages.map Passage.single) ↔
      ∀ e ∈ passages.map Passage.task, Survives p e := by
  constructor
  · rintro ⟨-, same⟩ e he
    obtain ⟨x, hx, rfl⟩ := List.mem_map.mp he
    obtain ⟨index, hi⟩ := List.mem_iff_getElem?.mp hx
    have this : c.SameItem batchId passages.length index
        (x.item d batchId passages.length index) x.single := by
      have := same index (x.item d batchId passages.length index) x.single
      simpa [List.getElem?_zipIdx, hi] using this
    exact (Passage.sameItem_iff laws).mp this
  · intro survives
    refine ⟨by simp, fun index item single hitem hsingle => ?_⟩
    rw [List.getElem?_map, List.getElem?_zipIdx] at hitem
    rw [List.getElem?_map] at hsingle
    obtain ⟨x, hx, rfl⟩ := Option.map_eq_some_iff.mp hsingle
    rw [hx] at hitem
    obtain rfl := Option.some.inj hitem
    have member : x.task ∈ passages.map Passage.task :=
      List.mem_map_of_mem (List.mem_of_getElem? hx)
    simpa using (Passage.sameItem_iff laws).mpr (survives x.task member)

variable {individual : List Outgoing} {batchId : String} {batchMeta : Fields Value}
  {batch : Outgoing}

/-- A worker that gets a batch sends one message for each task, all of them if it returns and
some if it raises. They are those of the individual mode exactly if every task survives. -/
theorem batch_detour_iff (laws : Pydantic p) (rereads : Rereads p)
    (nothing : ∀ fields : Fields Value,
      p.dumpBatch (fresh tasks.length) batchId envelopes batchMeta = .ok (.dict fields) →
        FindsNothing p envelopes fields)
    (codec : c.codec = p.codec) (aliases : c.aliasConfig = p.aliasConfig)
    (policy : c.retryPolicy.isSome = true) (shared : c.routedTopology = false)
    (prepared : p.prepareTasks fresh tasks = .ok envelopes)
    (one : p.publishIndividually fresh tasks = .ok individual)
    (all : p.publishBatch fresh tasks (some batchId) batchMeta = .ok batch)
    (body : d.message.body = batch.body) :
    ∃ items : List Outgoing,
      (∀ t res, Run (c.handleMessageImpl d) t res →
        (sent t).Subperm (items.map (d.sourceQueueName, ·)) ∧
          (res = .ok () → (sent t).Perm (items.map (d.sourceQueueName, ·)))) ∧
      (c.SameItems batchId items individual ↔ ∀ e ∈ envelopes, Survives p e) := by
  obtain ⟨v, dumped, json⟩ := publishBatch_ok prepared all
  obtain ⟨payloads, dumps, published⟩ := publishIndividually_ok prepared one
  obtain ⟨fields, vs, rfl, once, known, hid, htasks, hvs⟩ := laws.batch dumped
  obtain ⟨once_, twice, free⟩ := nothing fields dumped
  have keys : ((normalizeContractAliases p.codec.text (normalizeContractAliases p.codec.text fields
      p.aliasConfig) p.aliasConfig).map Prod.fst).Nodup := keys_normalize (keys_normalize once)
  obtain ⟨again, valid, same⟩ := rereads.validated d.message.fresh dumped keys twice
  have normalBatch := normalizeBatchPayload_eq rfl keys
    ((twice.lookup (by decide) (by decide)).trans htasks) fun v hv => by
      obtain ⟨e, he, hd⟩ := exists_of_forall₂ hvs hv
      exact normalizePayload_self laws hd (free e he)
  obtain ⟨passages, rfl, rfl, rfl⟩ := exists_passages same dumps published
  refine ⟨passages.zipIdx.map fun x => x.1.item d batchId passages.length x.2, ?_,
    sameItems_iff laws⟩
  have parsed : c.codec.parseTransportJson d.message.body = .ok (.dict fields) := by
    rw [codec, body]
    exact rereads.parsed dumped json
  have isBatch : isBatchTaskPayload
      (normalizeContractAliases p.codec.text fields p.aliasConfig) = true := by
    rw [isBatchTaskPayload, once_.lookup (by decide) (by decide), hid,
      once_.lookup (by decide) (by decide), htasks]
  have items : (passages.map Passage.again).zipIdx.map
      (c.batchItem d ⟨batchId, passages.map Passage.again⟩) =
      ((passages.zipIdx.map fun x => x.1.item d batchId passages.length x.2).map
        (d.sourceQueueName, ·)).map fun entry => .ok (.publishRaw entry.1 entry.2) := by
    rw [List.zipIdx_map, List.map_map, List.map_map, List.map_map]
    refine List.map_congr_left fun x _ => (Passage.batchItem_eq codec _).trans ?_
    rw [List.length_map]
    rfl
  have ships := handleMessageImpl_ships policy shared parsed (by rw [codec, aliases, isBatch])
    (by rw [codec, aliases, normalBatch, valid]) items
  intro t res run
  have := ships [] t res rfl run
  cases res with
  | ok _ => exact ⟨this.subperm, fun _ => this⟩
  | error exc => exact ⟨this, nofun⟩

end TaskConsumer

/-! ## Two tasks -/

def plainTask : Fields Value :=
  [("task_id", .str "t"), ("payload", .dict []), ("created_at", .str "2026-01-01T00:00:00Z"),
    ("spec_version", .str "1.0")]

def urgentTask : Fields Value :=
  [("task_id", .str "t"), ("payload", .dict []), ("created_at", .str "2026-01-01T00:00:00Z"),
    ("priority", .int 5), ("spec_version", .str "1.0")]

def batchOf (batchId : String) (tasks : List Value) (batchMeta : Fields Value) : Value :=
  .dict [("batch_id", .str batchId), ("tasks", .list tasks), ("meta", .dict batchMeta),
    ("created_at", .str "2026-01-01T00:00:00Z"), ("spec_version", .str "1.0")]

def createdAtText : Bytes := ascii "\"created_at\":\"2026-01-01T00:00:00Z\","

def specVersionText : Bytes := ascii "\"spec_version\":\"1.0\"\x7d"

def taskTextWith (priority : Bytes) : Bytes :=
  ascii "\x7b\"task_id\":\"t\",\"payload\":\x7b\x7d," ++ createdAtText ++ priority ++
    specVersionText

def plainTaskText : Bytes := taskTextWith []

def urgentTaskText : Bytes := taskTextWith (ascii "\"priority\":5,")

def batchText (task : Bytes) : Bytes :=
  ascii "\x7b\"batch_id\":\"b\",\"tasks\":[" ++ task ++ ascii "],\"meta\":\x7b\x7d," ++
    createdAtText ++ specVersionText

/-- The two tasks, and batches of one of them. -/
def taskTable : List (Bytes × Value) :=
  [(plainTaskText, .dict plainTask), (urgentTaskText, .dict urgentTask),
    (batchText plainTaskText, batchOf "b" [.dict plainTask] []),
    (batchText urgentTaskText, batchOf "b" [.dict urgentTask] [])]

/-- A field that is a text or missing. -/
def textAt (fields : Fields Value) (key : String) : Option (Option String) :=
  match fields.lookup key with
  | none => some none
  | some (.str s) => some (some s)
  | _ => none

/-- `TaskEnvelope` for tasks that give every field with a default. -/
def validateTaskFields : Value → Option TaskEnvelope
  | .dict fields =>
    match textAt fields "task_id", textAt fields "task_type", textAt fields "correlation_id" with
    | some (some taskId), some taskType, some correlationId =>
      some ⟨taskId, taskType, correlationId, .dict fields⟩
    | _, _, _ => none
  | _ => none

def dumpTaskFields (task : TaskEnvelope) : Except (String × String) Value :=
  match task.content with
  | .dict fields =>
    if (fields.map Prod.fst).Nodup ∧ textAt fields "task_id" = some (some task.taskId) ∧
        textAt fields "task_type" = some task.taskType ∧
        textAt fields "correlation_id" = some task.correlationId then
      .ok (.dict fields)
    else .error ("PydanticSerializationError", "")
  | _ => .error ("PydanticSerializationError", "")

def twoTaskCodec : Codec :=
  { Codec.tabulated taskTable with
    validateTask := fun _ => validateTaskFields
    validateBatch := fun _ payload =>
      match payload.get "batch_id", payload.get "tasks" with
      | some (.str batchId), some (.list tasks) =>
        (tasks.mapM validateTaskFields).map (⟨batchId, ·⟩)
      | _, _ => none
    dumpTask := dumpTaskFields }

def twoTaskPublisher : TaskPublisher where
  codec := twoTaskCodec
  aliasConfig := none
  taskMaxPriority := some 10
  dumpBatch _ batchId tasks batchMeta := do
    let payloads ← tasks.mapM dumpTaskFields
    if payloads = [] then .error ("ValidationError", "")
    else return batchOf batchId payloads batchMeta

theorem dumpTaskFields_ok {e : TaskEnvelope} {v : Value} (h : dumpTaskFields e = .ok v) :
    ∃ fields, e.content = .dict fields ∧ v = .dict fields ∧ (fields.map Prod.fst).Nodup ∧
      textAt fields "task_id" = some (some e.taskId) ∧
      textAt fields "task_type" = some e.taskType ∧
      textAt fields "correlation_id" = some e.correlationId := by
  unfold dumpTaskFields at h
  split at h
  · rename_i fields hc
    split at h
    · rename_i checked
      exact ⟨fields, hc, (Except.ok.inj h).symm, checked⟩
    · cases h
  · cases h

theorem textAt_eq_some {fields : Fields Value} {key : String} {s : Option String}
    (h : textAt fields key = some s) : fields.lookup key = s.map .str := by
  unfold textAt at h
  split at h
  · obtain rfl := Option.some.inj h
    assumption
  · obtain rfl := Option.some.inj h
    assumption
  · cases h

/-- A task that has been dumped is the task that its dump is validated to. -/
theorem validateTaskFields_dump {e : TaskEnvelope} {v : Value} (h : dumpTaskFields e = .ok v) :
    validateTaskFields v = some e := by
  obtain ⟨fields, content, rfl, -, taskId, taskType, correlationId⟩ := dumpTaskFields_ok h
  unfold validateTaskFields
  simp only [taskId, taskType, correlationId, ← content]

theorem content_of_validateTaskFields {fields : Fields Value} {e : TaskEnvelope}
    (h : validateTaskFields (.dict fields) = some e) : e.content = .dict fields := by
  simp only [validateTaskFields] at h
  split at h
  · obtain rfl := Option.some.inj h
    rfl
  · cases h

theorem mapM_some_of_forall₂ {α β : Type} {f : β → Option α} {xs : List α} {ys : List β}
    (h : List.Forall₂ (fun x y => f y = some x) xs ys) : ys.mapM f = some xs := by
  induction h with
  | nil => rfl
  | cons hx _ ih =>
    rw [List.mapM_cons, hx, ih]
    rfl

theorem twoTaskPublisher_laws : Pydantic twoTaskPublisher where
  task h := by
    obtain ⟨fields, -, rfl, once, taskId, -, correlationId⟩ := dumpTaskFields_ok h
    exact ⟨fields, rfl, once, textAt_eq_some taskId, textAt_eq_some correlationId⟩
  batch {_ batchId es batchMeta v} dumped := by
    obtain ⟨payloads, hp, h⟩ := bind_ok.mp dumped
    split at h
    · cases h
    · obtain rfl := Except.ok.inj h
      have once : batchFields.Nodup := by decide
      refine ⟨_, payloads, rfl, once, fun key has => ?_, rfl, rfl, mapM_ok hp⟩
      obtain ⟨entry, he, rfl⟩ := Fields.has_iff.mp has
      exact List.mem_map_of_mem he

theorem twoTaskPublisher_rereads : Rereads twoTaskPublisher where
  validated {_ batchId es batchMeta fields left} _ dumped _ keeps := by
    obtain ⟨payloads, hp, h⟩ := bind_ok.mp dumped
    split at h
    · cases h
    · obtain rfl := Value.dict.inj (Except.ok.inj h)
      have valid : payloads.mapM validateTaskFields = some es :=
        mapM_some_of_forall₂ ((mapM_ok hp).imp fun _ _ => validateTaskFields_dump)
      have id : Value.get (.dict left) "batch_id" = some (.str batchId) :=
        keeps.lookup (by decide) (by decide)
      have tasks : Value.get (.dict left) "tasks" = some (.list payloads) :=
        keeps.lookup (by decide) (by decide)
      refine ⟨es, ?_, List.forall₂_same.mpr fun e _ => ⟨rfl, rfl, rfl⟩⟩
      unfold twoTaskPublisher twoTaskCodec
      simp only [id, tasks, valid, Option.map_some]
  parsed _ json := Codec.parses_tabulated (by decide +kernel) rfl json

def sharedWorker : TaskConsumer where
  codec := twoTaskCodec
  consumerName := "worker"
  retryPolicy := some { maxRetries := 3 }
  retryStatuses := {}
  aliasConfig := none
  observationSink := false
  dlqStore := false
  metrics := false
  failureAction := .reject
  lifecycleStatuses := {}
  leasing := none
  batchPublishConcurrency := 16
  routedTopology := false
  one_le_batchPublishConcurrency := by decide

def batchDelivery (body : Bytes) : Delivery where
  message := ⟨body, fun _ => none, some "b", some 1, false, some "application/json", ⟨"0", 0⟩⟩
  metadata := ⟨fun _ => none, some "b", some 1, false, some "application/json", 0⟩
  sourceQueueName := "tasks"
  retryInfrastructure := some ⟨"tasks", "tasks.retry", "tasks.dlq"⟩

/-- Nothing but the time is drawn for tasks that give every field. -/
def drawn : Nat → Fresh := fun _ => ⟨"0", 0⟩

theorem handled {c : TaskConsumer} {text : Bytes}
    (ok : (((c.handleMessageImpl (batchDelivery text)).exec granting).2).isOk = true) :
    ((c.handleMessageImpl (batchDelivery text)).exec granting).2 = .ok () := by
  revert ok
  cases ((c.handleMessageImpl (batchDelivery text)).exec granting).2 <;>
    simp [Except.isOk, Except.toBool]

/-- `service` is another name of `kind`, and no task gives either. -/
def kindAliases : Option ContractAliasConfig := some ⟨[("kind", "service")]⟩

def kindPublisher : TaskPublisher := { twoTaskPublisher with aliasConfig := kindAliases }

def kindWorker : TaskConsumer := { sharedWorker with aliasConfig := kindAliases }

theorem findsNothing_kind : ∀ fields : Fields Value,
    kindPublisher.dumpBatch (drawn 1) "b" [⟨"t", none, none, .dict plainTask⟩] [] =
      .ok (.dict fields) →
    FindsNothing kindPublisher [⟨"t", none, none, .dict plainTask⟩] fields := by
  intro fields dumped
  obtain rfl : fields = [("batch_id", .str "b"), ("tasks", .list [.dict plainTask]),
      ("meta", .dict []), ("created_at", .str "2026-01-01T00:00:00Z"),
      ("spec_version", .str "1.0")] := (Value.dict.inj (Except.ok.inj dumped)).symm
  refine ⟨fun key mem => Or.inl ?_, fun key mem => Or.inl ?_, fun e he task same => ?_⟩
  · rfl
  · rfl
  · obtain rfl := List.mem_singleton.mp he
    obtain rfl : plainTask = task := Value.dict.inj (Except.ok.inj same)
    decide

/-- A task without priority arrives as if it had been sent alone. -/
theorem TaskConsumer.batch_detour_iff_plain :
    ∃ single batch items t,
      kindPublisher.publishIndividually drawn [plainTask] = .ok [single] ∧
      kindPublisher.publishBatch drawn [plainTask] (some "b") [] = .ok batch ∧
      Run (kindWorker.handleMessageImpl (batchDelivery batch.body)) t (.ok ()) ∧
      (sent t).Perm (items.map ("tasks", ·)) ∧ kindWorker.SameItems "b" items [single] := by
  obtain ⟨single, one⟩ : ∃ single,
      kindPublisher.publishIndividually drawn [plainTask] = .ok [single] := ⟨_, rfl⟩
  obtain ⟨batch, all, body⟩ : ∃ batch,
      kindPublisher.publishBatch drawn [plainTask] (some "b") [] = .ok batch ∧
        batch.body = batchText plainTaskText := ⟨_, rfl, rfl⟩
  have prepared : kindPublisher.prepareTasks drawn [plainTask] =
      .ok [⟨"t", none, none, .dict plainTask⟩] := rfl
  obtain ⟨items, ships, same⟩ := batch_detour_iff (c := kindWorker)
    (d := batchDelivery batch.body) (twoTaskPublisher_laws.withAliases kindAliases)
    (twoTaskPublisher_rereads.withAliases kindAliases) findsNothing_kind rfl rfl rfl rfl prepared
    one
    all rfl
  have run := run_exec granting (kindWorker.handleMessageImpl (batchDelivery batch.body))
  rw [body, handled (by decide +kernel), ← body] at run
  refine ⟨single, batch, items, _, one, all, run, (ships _ _ run).2 rfl, same.mpr ?_⟩
  intro e he
  obtain rfl := List.mem_singleton.mp he
  refine ⟨fun v hv => ?_, Or.inl (by decide)⟩
  obtain rfl := Except.ok.inj (show Except.ok (Value.dict plainTask) = _ from hv)
  rfl

/-- The priority of a task does not survive the batch, though the envelope has it. -/
theorem TaskConsumer.batch_drops_priority :
    ∃ single batch t, twoTaskPublisher.publishIndividually drawn [urgentTask] = .ok [single] ∧
      twoTaskPublisher.publishBatch drawn [urgentTask] (some "b") [] = .ok batch ∧
      Run (sharedWorker.handleMessageImpl (batchDelivery batch.body)) t (.ok ()) ∧
      single.priority = some 5 ∧ batch.priority = some 5 ∧
      (sent t).map (fun entry => (entry.1, entry.2.priority)) = [("tasks", none)] ∧
      ∀ items, (sent t).Perm (items.map ("tasks", ·)) →
        ¬sharedWorker.SameItems "b" items [single] := by
  obtain ⟨single, one, high⟩ : ∃ single,
      twoTaskPublisher.publishIndividually drawn [urgentTask] = .ok [single] ∧
        single.priority = some 5 := ⟨_, rfl, rfl⟩
  obtain ⟨batch, all, marked, body⟩ : ∃ batch,
      twoTaskPublisher.publishBatch drawn [urgentTask] (some "b") [] = .ok batch ∧
        batch.priority = some 5 ∧ batch.body = batchText urgentTaskText := ⟨_, rfl, rfl, rfl⟩
  have run := run_exec granting (sharedWorker.handleMessageImpl (batchDelivery batch.body))
  have low : (sent ((sharedWorker.handleMessageImpl (batchDelivery batch.body)).exec
      granting).1).map (fun entry => (entry.1, entry.2.priority)) = [("tasks", none)] := by
    rw [body]
    decide +kernel
  rw [body, handled (by decide +kernel), ← body] at run
  refine ⟨single, batch, _, one, all, run, high, marked, low, fun items perm same => ?_⟩
  obtain ⟨length, same⟩ := same
  obtain ⟨item, rfl⟩ := List.length_eq_one_iff.mp length
  have priority := (same 0 item single rfl rfl).priority
  have sentItem := List.perm_singleton.mp perm
  rw [sentItem] at low
  simp only [List.map_cons, List.map_nil, List.cons.injEq, Prod.mk.injEq, and_true, true_and] at low
  rw [low, high] at priority
  cases priority

end Relayna.Consumer
