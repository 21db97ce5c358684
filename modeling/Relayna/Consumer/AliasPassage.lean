import Relayna.Consumer.BatchPublish

/-!
# Aliases between a publisher and a consumer

A task is normalised before it is published and again by every consumer that reads it. The second
time has nothing left to do when no alias is the name of a field that the envelope itself puts
into the message, whether the task gave it or not.

The alias map is the built-in alias of `task_id` with the configured ones written over it. The
conditions are about this map: a configuration that is bijective by itself can give two fields
the alias `documentId`.
-/
namespace Relayna.Consumer

open Python Contracts Rabbitmq

/-- `_prepare_task_payload`. -/
def prepareTaskPayload (p : TaskPublisher) (fresh : Fresh) (task : Fields Value) :
    Except Exc Value := do
  let envelope ← p.prepareTaskEnvelope fresh task
  p.dump envelope

/-- The fields of `TaskEnvelope` that are dumped though the task does not have them. -/
def filledFields : List String := ["payload", "created_at", "spec_version"]

/-- With `exclude_none` a dump has the fields that were given and those with a default. -/
def Fills (codec : Codec) : Prop :=
  ∀ {fresh e key} {given fields : Fields Value},
    codec.validateTask fresh (.dict given) = some e → codec.dumpTask e = .ok (.dict fields) →
    fields.has key = true → given.has key = true ∨ key ∈ filledFields

variable {p : TaskPublisher}

theorem prepareTaskPayload_ok {fresh : Fresh} {task : Fields Value} {v : Value}
    (h : prepareTaskPayload p fresh task = .ok v) :
    ∃ e, p.codec.validateTask fresh
        (.dict (normalizeContractAliases p.codec.text task p.aliasConfig)) = some e ∧
      p.codec.dumpTask e = .ok v := by
  obtain ⟨e, he, h⟩ := Failing.bind_ok.mp h
  refine ⟨e, ?_, Failing.mapError_ok.mp h⟩
  unfold TaskPublisher.prepareTaskEnvelope at he
  split at he
  · cases he
  · rename_i valid
    obtain rfl := Except.ok.inj he
    exact valid

/-- A task that has been prepared has no aliased fields left, if no alias is the name of one of
the fields that the envelope adds. -/
theorem has_dumped (fills : Fills p.codec) (apart : AliasesApart (aliasMap p.aliasConfig))
    (unfilled : ∀ entry ∈ aliasMap p.aliasConfig, entry.2 ∉ filledFields) {fresh : Fresh}
    {e : TaskEnvelope} {given task : Fields Value}
    (valid : p.codec.validateTask fresh
      (.dict (normalizeContractAliases p.codec.text given p.aliasConfig)) = some e)
    (dumped : p.codec.dumpTask e = .ok (.dict task)) :
    ∀ entry ∈ aliasMap p.aliasConfig, task.has entry.2 = false := by
  intro entry hentry
  by_contra has
  obtain h | h := fills valid dumped (by simpa using has)
  · rw [has_normalizeContractAliases apart hentry] at h
    cases h
  · exact unfilled entry hentry h

/-- Nor has the batch envelope, which adds its own. -/
theorem normalizeContractAliases_batch
    (free : ∀ entry ∈ aliasMap p.aliasConfig, entry.2 ∉ batchFields)
    {fields : Fields Value} (once : (fields.map Prod.fst).Nodup)
    (known : ∀ key, fields.has key = true → key ∈ batchFields) :
    normalizeContractAliases p.codec.text fields p.aliasConfig = fields := by
  refine normalizeContractAliases_self once (fun entry hentry => ?_) fun v hv => ?_
  · by_contra has
    exact free entry hentry (known _ (by simpa using has))
  · have := known _ (Fields.has_iff.mpr ⟨_, Fields.mem_of_lookup hv, rfl⟩)
    simp [batchFields] at this

/-- The consumer finds nothing left to rename in a task. -/
theorem normalizePayload_prepared (laws : Pydantic p) (fills : Fills p.codec)
    (apart : AliasesApart (aliasMap p.aliasConfig))
    (unfilled : ∀ entry ∈ aliasMap p.aliasConfig, entry.2 ∉ filledFields)
    {fresh : Fresh} {task : Fields Value} {v : Value}
    (published : prepareTaskPayload p fresh task = .ok v) :
    normalizePayload p.codec.text v p.aliasConfig = v := by
  obtain ⟨e, valid, dumped⟩ := prepareTaskPayload_ok published
  exact normalizePayload_self laws dumped fun task same =>
    has_dumped fills apart unfilled valid same

/-- Nor in a batch. -/
theorem normalizeBatchPayload_prepared (laws : Pydantic p) (fills : Fills p.codec)
    (apart : AliasesApart (aliasMap p.aliasConfig))
    (unfilled : ∀ entry ∈ aliasMap p.aliasConfig, entry.2 ∉ filledFields)
    (free : ∀ entry ∈ aliasMap p.aliasConfig, entry.2 ∉ batchFields)
    {fresh : Nat → Fresh} {drawn : Fresh} {tasks : List (Fields Value)}
    {envelopes : List TaskEnvelope} {batchId : String} {batchMeta fields : Fields Value}
    (prepared : p.prepareTasks fresh tasks = .ok envelopes)
    (dumped : p.dumpBatch drawn batchId envelopes batchMeta = .ok (.dict fields)) :
    normalizeBatchPayload p.codec.text fields p.aliasConfig = fields := by
  obtain ⟨_, vs, same, once, known, -, htasks, hvs⟩ := laws.batch dumped
  obtain rfl := Value.dict.inj same
  refine normalizeBatchPayload_eq (normalizeContractAliases_batch free once known) once htasks
    fun v hv => ?_
  obtain ⟨e, he, hd⟩ := Failing.exists_of_forall₂ hvs hv
  obtain ⟨_, given, valid⟩ := validated_of_prepared prepared he
  exact normalizePayload_self laws hd fun task same => has_dumped fills apart unfilled valid same

/-- Renaming is undone, done once and for all, and not done again by the consumer. -/
theorem alias_passage (laws : Pydantic p) (fills : Fills p.codec)
    (bijective : Bijective p.aliasConfig) :
    (∀ payload : Fields Value, (∀ entry ∈ aliasMap p.aliasConfig, payload.has entry.2 = false) →
      TaskIdKept payload → ∀ key, (normalizeContractAliases p.codec.text
        (denormalizeContractAliases payload p.aliasConfig true) p.aliasConfig).lookup key =
          payload.lookup key) ∧
    (∀ payload : Fields Value, (payload.map Prod.fst).Nodup →
      normalizeContractAliases p.codec.text
        (normalizeContractAliases p.codec.text payload p.aliasConfig) p.aliasConfig =
          normalizeContractAliases p.codec.text payload p.aliasConfig) ∧
    ((∀ entry ∈ aliasMap p.aliasConfig, entry.2 ∉ filledFields) →
      (∀ fresh task v, prepareTaskPayload p fresh task = .ok v →
        normalizePayload p.codec.text v p.aliasConfig = v) ∧
      ((∀ entry ∈ aliasMap p.aliasConfig, entry.2 ∉ batchFields) →
        ∀ fresh drawn tasks envelopes batchId batchMeta fields,
          p.prepareTasks fresh tasks = .ok envelopes →
          p.dumpBatch drawn batchId envelopes batchMeta = .ok (.dict fields) →
          normalizeBatchPayload p.codec.text fields p.aliasConfig = fields)) := by
  refine ⟨fun payload free kept key => normalize_denormalize bijective free kept,
    fun payload once => normalize_normalize bijective.apart once, fun unfilled => ⟨?_, ?_⟩⟩
  · intro fresh task v published
    exact normalizePayload_prepared laws fills bijective.apart unfilled published
  · intro free fresh drawn tasks envelopes batchId batchMeta fields prepared dumped
    exact normalizeBatchPayload_prepared laws fills bijective.apart unfilled free prepared dumped

/-- `requestId` for `correlation_id`. -/
def requestIdPublisher : TaskPublisher :=
  { twoTaskPublisher with aliasConfig := some ⟨[("correlation_id", "requestId")]⟩ }

theorem requestIdPublisher_laws : Pydantic requestIdPublisher :=
  twoTaskPublisher_laws.withAliases _

theorem requestIdPublisher_fills : Fills requestIdPublisher.codec := by
  intro _ e key given fields valid dumped has
  obtain ⟨fields', content, same, -⟩ := dumpTaskFields_ok dumped
  obtain rfl := Value.dict.inj same
  obtain rfl := Value.dict.inj (content.symm.trans (content_of_validateTaskFields valid))
  exact Or.inl has

theorem requestIdPublisher_bijective : Bijective requestIdPublisher.aliasConfig where
  distinct := by decide
  apart := by
    unfold AliasesApart
    decide

/-- A task with both renamed fields, and what is published for a task and for a batch of it. -/
theorem alias_passage_of_requestId :
    (∀ key, (normalizeContractAliases plainText [("documentId", .str "t"), ("requestId", .str "c")]
      (some ⟨[("correlation_id", "requestId")]⟩)).lookup key =
        List.lookup key [("task_id", .str "t"), ("correlation_id", .str "c")]) ∧
    normalizePayload plainText (.dict plainTask) (some ⟨[("correlation_id", "requestId")]⟩) =
      .dict plainTask ∧
    ∃ fields, batchOf "b" [.dict plainTask] [] = .dict fields ∧
      normalizeBatchPayload plainText fields (some ⟨[("correlation_id", "requestId")]⟩) =
        fields := by
  obtain ⟨back, -, again⟩ := alias_passage requestIdPublisher_laws requestIdPublisher_fills
    requestIdPublisher_bijective
  obtain ⟨single, batch⟩ := again (by decide)
  refine ⟨fun key => back [("task_id", .str "t"), ("correlation_id", .str "c")] (by decide) ?_ key,
    single ⟨"0", 0⟩ plainTask _ rfl, _, rfl, ?_⟩
  · intro v hv
    exact Or.inr ⟨"t", (Option.some.inj hv).symm⟩
  · exact batch (by decide) drawn (drawn 1) [plainTask] [⟨"t", none, none, .dict plainTask⟩] "b" []
      _ rfl rfl

/-- The conditions on the configured aliases by themselves. -/
structure WellChosen (config : ContractAliasConfig) : Prop where
  unpadded : ∀ entry ∈ config.fieldAliases, entry.2 ≠ "" ∧ strip entry.2 = entry.2
  distinct : (config.fieldAliases.map Prod.snd).Nodup
  apart : AliasesApart config.fieldAliases

/-- `TaskEnvelope` adds the version to a task that has none. -/
def withSpecVersion : Value → Value
  | .dict fields =>
    if Fields.has fields "spec_version" then .dict fields
    else .dict (fields ++ [("spec_version", .str "1.0")])
  | v => v

def versioningPublisher (config : ContractAliasConfig) : TaskPublisher where
  codec := { twoTaskCodec with
    validateTask := fun _ v => validateTaskFields (withSpecVersion v) }
  aliasConfig := some config
  taskMaxPriority := none
  dumpBatch := twoTaskPublisher.dumpBatch

def unversionedTask : Fields Value :=
  [("task_id", .str "t"), ("payload", .dict []), ("created_at", .str "2026-01-01T00:00:00Z")]

/-- Well chosen aliases that lose a field: `documentId` for a second field on the way out and back,
and the name of a field of the task or of the batch envelope on the second normalisation. -/
theorem well_chosen_aliases_lose_fields :
    (WellChosen ⟨[("correlation_id", "documentId")]⟩ ∧
      ¬∀ key, (normalizeContractAliases plainText
        (denormalizeContractAliases [("task_id", .str "a"), ("correlation_id", .str "b")]
          (some ⟨[("correlation_id", "documentId")]⟩) true)
        (some ⟨[("correlation_id", "documentId")]⟩)).lookup key =
          List.lookup key [("task_id", .str "a"), ("correlation_id", .str "b")]) ∧
    (WellChosen ⟨[("version", "spec_version")]⟩ ∧
      ∃ v, prepareTaskPayload (versioningPublisher ⟨[("version", "spec_version")]⟩) ⟨"0", 0⟩
          unversionedTask = .ok v ∧
        normalizePayload plainText v (some ⟨[("version", "spec_version")]⟩) ≠ v) ∧
    (WellChosen ⟨[("note", "meta")]⟩ ∧
      ∃ fields, (versioningPublisher ⟨[("note", "meta")]⟩).dumpBatch ⟨"0", 0⟩ "b"
          [⟨"t", none, none, .dict plainTask⟩] [] = .ok (.dict fields) ∧
        normalizeBatchPayload plainText fields (some ⟨[("note", "meta")]⟩) ≠ fields) := by
  refine ⟨⟨?_, fun same => ?_⟩, ⟨?_, _, rfl, fun same => ?_⟩, ⟨?_, _, rfl, fun same => ?_⟩⟩
  · exact ⟨by decide +kernel, by decide, by unfold AliasesApart; decide⟩
  · have collided : some (Value.str "b") = some (Value.str "a") := same "task_id"
    exact absurd (Value.str.inj (Option.some.inj collided)) (by decide)
  · exact ⟨by decide +kernel, by decide, by unfold AliasesApart; decide⟩
  · have gone : none = some (Value.str "1.0") := congrArg (Value.get · "spec_version") same
    cases gone
  · exact ⟨by decide +kernel, by decide, by unfold AliasesApart; decide⟩
  · have gone : none = some (Value.dict []) := congrArg (List.lookup "meta") same
    cases gone

end Relayna.Consumer
