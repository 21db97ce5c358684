import Relayna.Rabbitmq.WorkflowPublish
import Relayna.Topology.ShardRouting

/-!
# Publishing statuses and aggregation events

`publish_status` and `publish_aggregation_status` prepare the same payload and publish it to the
same exchange, the one under its task id and the other under a shard of its parent's id. The shard
is computed from the payload before and after it is written into the payload; neither reads a
field that was written in between.

A task id that is spelled like a shard's key reaches the queue of that shard.
-/
namespace Relayna.Rabbitmq

open Consumer Contracts Failing Python Topology

/-- What the publishing methods are given: a `StatusEventEnvelope` or another model, each with its
`model_dump`, or a mapping. -/
inductive StatusPayload where
  | envelope (taskId : String) (correlationId : Option String) (dumped : Fields Value)
  | model (dumped : Fields Value)
  | mapping (fields : Fields Value)

/-- `to_dict(event)`. -/
def StatusPayload.toDict : StatusPayload → Fields Value
  | .envelope _ _ dumped => dumped
  | .model dumped => dumped
  | .mapping fields => fields

/-- What `active_trace_fields` returns. -/
abbrev TraceFields := Option (String × String)

def TraceFields.fields (trace : TraceFields) : Fields Value :=
  match trace with
  | none => []
  | some (traceId, spanId) => [("trace_id", .str traceId), ("span_id", .str spanId)]

/-- `ensure_status_event_id`. -/
def ensureStatusEventId (text : Text) (event : Fields Value) : Fields Value :=
  let digest := text.sha256 (text.dumps (.dict (Fields.pop event "event_id")))
  match event.lookup "event_id" with
  | some (.str existing) =>
    if strip existing = "" then event.set "event_id" (.str digest)
    else event.set "event_id" (.str (strip existing))
  | _ => event.set "event_id" (.str digest)

structure StatusPublisher where
  text : Text
  /-- `encode_transport_json`; it fails with an exception's type and text. -/
  toJson : Value → Except (String × String) Bytes
  /-- `int(sha256(key).hexdigest(), 16)`. -/
  digest : String → Nat
  aliasConfig : Option ContractAliasConfig
  topology : ShardedAggregationTopology

/-- A message for the status exchange. -/
structure PublishedStatus where
  payload : Fields Value
  routingKey : String
  message : Outgoing

namespace StatusPublisher

variable (p : StatusPublisher)

/-- `as_transport_dict`. -/
def transport (taskId : String) (correlationId : Option String) (dumped : Fields Value) :
    Fields Value :=
  let data := if dumped.has "correlation_id" then dumped
    else dumped.set "correlation_id" (.str ((correlationId.bind nonEmpty).getD taskId))
  ensureStatusEventId p.text data

/-- The dictionary that `_prepare_status_payload` starts from. -/
def eventDict : StatusPayload → Fields Value
  | .envelope taskId correlationId dumped => p.transport taskId correlationId dumped
  | .model dumped => dumped
  | .mapping fields => normalizeContractAliases p.text fields p.aliasConfig

/-- The status as a text. -/
def withStatusText (event : Fields Value) : Fields Value :=
  match event.lookup "status" with
  | none | some .none | some (.str _) => event
  | some status => event.set "status" (.str (p.text.str status))

/-- The correlation id, which is the task id unless one is given. -/
def withCorrelationId (event : Fields Value) : Fields Value :=
  let taskId := p.text.str ((event.lookup "task_id").getD (.str ""))
  let correlationId := (((event.lookup "correlation_id").filter Value.truthy).map p.text.str).getD
    taskId
  if correlationId = "" then event else event.set "correlation_id" (.str correlationId)

/-- `_prepare_status_payload`. -/
def prepareStatusPayload (trace : TraceFields) (event : StatusPayload) : Fields Value :=
  let eventDict := p.withCorrelationId (p.withStatusText (p.eventDict event))
  ensureStatusEventId p.text (eventDict.update trace.fields)

/-- `_publish_status_payload`, inside the span that it opens. -/
def publishStatusPayload (trace : TraceFields) (payload : Fields Value) (routingKey : String) :
    Except PublishError PublishedStatus := do
  let taskId := p.text.str ((payload.lookup "task_id").getD (.str ""))
  let status := p.text.str ((payload.lookup "status").getD (.str ""))
  let payload := payload.update trace.fields
  let body ← (p.toJson (.dict payload)).mapError fun e => .serialization e.1 e.2
  return {
    payload
    routingKey
    message := {
      body
      correlationId := nonEmpty (p.text.str ((payload.lookup "correlation_id").getD .none))
      headers := fun key => List.lookup key [("task_id", .str taskId), ("status", .str status)]
      priority := none
      contentType := some "application/json" } }

/-- `publish_status`. -/
def publishStatus (before inside : TraceFields) (event : StatusPayload) :
    Except PublishError PublishedStatus := do
  let payload := p.prepareStatusPayload before event
  let routingKey ← (taskIdRoutingKey p.text payload none).mapError .topology
  p.publishStatusPayload inside payload routingKey

/-- `publish_aggregation_status`. -/
def publishAggregationStatus (before inside : TraceFields) (event : StatusPayload) :
    Except PublishError PublishedStatus :=
  let payload := p.prepareStatusPayload before event
  let missing := "aggregation status event requires meta.parent_task_id"
  match payload.lookup "meta" with
  | some (.dict fields) => do
    (refuseIf (strip (textOr p.text (fields.lookup "parent_task_id")) = "") missing).mapError
      .topology
    let shard ← (p.topology.aggregationShard p.text p.digest payload).mapError .topology
    let payloadMeta := (Fields.set fields "aggregation_shard" (.int shard)).set
      "aggregation_role" (.str "aggregation")
    let payload := payload.set "meta" (.dict payloadMeta)
    let routingKey ←
      (p.topology.aggregationStatusRoutingKey p.text p.digest payload).mapError .topology
    p.publishStatusPayload inside payload routingKey
  | _ => .error (.topology (.valueError missing))

/-! ## What stays of the event -/

variable {p} {trace before inside : TraceFields} {event : StatusPayload} {payload : Fields Value}
  {key : String}

theorem lookup_trace (d : Fields Value) (id : key ≠ "trace_id") (span : key ≠ "span_id") :
    (d.update trace.fields).lookup key = d.lookup key := by
  refine Fields.lookup_update_of_notMem ?_
  cases trace with
  | none => exact List.not_mem_nil
  | some ids => simp [TraceFields.fields, id, span]

theorem lookup_ensureStatusEventId {text : Text} (ne : key ≠ "event_id") :
    (ensureStatusEventId text payload).lookup key = payload.lookup key := by
  unfold ensureStatusEventId
  split
  · split <;> exact Fields.lookup_set_ne ne
  · exact Fields.lookup_set_ne ne

theorem prepared_meta : (p.prepareStatusPayload trace event).lookup "meta" =
    (p.eventDict event).lookup "meta" := by
  have status : (p.withStatusText (p.eventDict event)).lookup "meta" =
      (p.eventDict event).lookup "meta" := by
    unfold withStatusText
    split
    · rfl
    · rfl
    · rfl
    · exact Fields.lookup_set_ne (by decide)
  have correlated : (p.withCorrelationId (p.withStatusText (p.eventDict event))).lookup "meta" =
      (p.withStatusText (p.eventDict event)).lookup "meta" := by
    unfold withCorrelationId
    dsimp only
    split
    · rfl
    · exact Fields.lookup_set_ne (by decide)
  rw [prepareStatusPayload, lookup_ensureStatusEventId (by decide),
    lookup_trace _ (by decide) (by decide), correlated, status]

/-- The `meta` of the payload, if it has one, is that of the event, if that has one. -/
theorem prepared_meta_of_given {given sent : Value} (has : event.toDict.lookup "meta" = some given)
    (out : (p.prepareStatusPayload trace event).lookup "meta" = some sent) : sent = given := by
  rw [prepared_meta] at out
  cases event with
  | envelope taskId correlationId dumped =>
    have same : (p.transport taskId correlationId dumped).lookup "meta" =
        dumped.lookup "meta" := by
      unfold transport
      rw [lookup_ensureStatusEventId (by decide)]
      split
      · rfl
      · exact Fields.lookup_set_ne (by decide)
    exact Option.some.inj ((out.symm.trans same).trans has)
  | model dumped => exact Option.some.inj (out.symm.trans has)
  | mapping fields =>
    have present : Fields.has fields "meta" = true := by
      rw [← Fields.lookup_isSome]
      exact has ▸ rfl
    have kept : (normalizeContractAliases p.text fields p.aliasConfig).has "meta" = true := by
      rw [← Fields.lookup_isSome]
      exact out ▸ rfl
    exact Option.some.inj (out.symm.trans ((lookup_normalize present (by decide) kept).trans has))

end StatusPublisher

/-! ## What is published -/

/-- The shard that the published `meta` names. -/
def PublishedStatus.shard (sent : PublishedStatus) : Option Int :=
  match sent.payload.lookup "meta" with
  | some (.dict fields) =>
    match fields.lookup "aggregation_shard" with
    | some (.int shard) => some shard
    | _ => none
  | _ => none

/-- The text of the published `meta.parent_task_id`. -/
def PublishedStatus.parentTaskId (p : StatusPublisher) (sent : PublishedStatus) : String :=
  aggregationParentTaskId p.text sent.payload

namespace StatusPublisher

variable {p : StatusPublisher} {before inside : TraceFields} {event : StatusPayload}
  {payload : Fields Value} {sent : PublishedStatus} {routingKey : String} {shard : Int}

/-- The shard of a parent's id. -/
def shardOf (p : StatusPublisher) (key : String) : Int :=
  (p.digest key : Int) % max 1 p.topology.shardCount

theorem publishStatusPayload_ok (h : p.publishStatusPayload inside payload routingKey = .ok sent) :
    sent.payload = payload.update inside.fields ∧ sent.routingKey = routingKey := by
  obtain ⟨body, -, h⟩ := bind_ok.mp h
  obtain rfl := Except.ok.inj h
  exact ⟨rfl, rfl⟩

theorem aggregationShard_ok_iff : p.topology.aggregationShard p.text p.digest payload = .ok shard ↔
    aggregationParentTaskId p.text payload ≠ "" ∧
      shard = p.shardOf (aggregationParentTaskId p.text payload) := by
  have key : aggregationParentTaskId p.text (normalizeContractAliases p.text payload none) =
      aggregationParentTaskId p.text payload := by
    rw [aggregationParentTaskId, Topology.parentTaskId,
      lookup_normalize_default (by decide) (by decide), aggregationParentTaskId,
      Topology.parentTaskId]
  have computed : p.topology.aggregationShard p.text p.digest payload =
      (refuseIf (aggregationParentTaskId p.text payload = "") "status event missing shard key" >>=
        fun _ => .ok (p.shardOf (aggregationParentTaskId p.text payload))) := by
    rw [← key]
    rfl
  rw [computed, refuseIf_bind_ok, Except.ok.injEq, eq_comm (a := shard)]

theorem publishAggregationStatus_ok
    (h : p.publishAggregationStatus before inside event = .ok sent) :
    sent.parentTaskId p ≠ "" ∧ sent.shard = some (p.shardOf (sent.parentTaskId p)) ∧
      sent.routingKey = shardKey p.topology.aggregationRoutingPrefix
        (p.shardOf (sent.parentTaskId p)) ∧
      ∃ fields, (p.prepareStatusPayload before event).lookup "meta" = some (.dict fields) ∧
        textOr p.text (fields.lookup "parent_task_id") = sent.parentTaskId p := by
  unfold publishAggregationStatus at h
  dsimp only at h
  split at h
  · next fields given =>
    obtain ⟨-, -, h⟩ := bind_ok.mp h
    obtain ⟨shard, routed, h⟩ := bind_ok.mp h
    obtain ⟨routingKey, again, h⟩ := bind_ok.mp h
    obtain ⟨nonempty, rfl⟩ := aggregationShard_ok_iff.mp (mapError_ok.mp routed)
    obtain ⟨shard, routed', made⟩ := bind_ok.mp (mapError_ok.mp again)
    obtain ⟨-, rfl⟩ := aggregationShard_ok_iff.mp routed'
    obtain rfl := Except.ok.inj made
    obtain ⟨whole, key⟩ := publishStatusPayload_ok h
    have parent : aggregationParentTaskId p.text (p.prepareStatusPayload before event) =
        textOr p.text (fields.lookup "parent_task_id") := by
      rw [aggregationParentTaskId, Topology.parentTaskId, given]
    rw [parent] at whole key nonempty
    -- What is written into `meta` leaves the parent's id.
    have kept (shard : Int) : aggregationParentTaskId p.text
        ((p.prepareStatusPayload before event).set "meta" (.dict ((Fields.set fields
          "aggregation_shard" (.int shard)).set "aggregation_role" (.str "aggregation")))) =
        textOr p.text (fields.lookup "parent_task_id") := by
      rw [aggregationParentTaskId, Topology.parentTaskId, Fields.lookup_set_self]
      dsimp only
      rw [Fields.lookup_set_ne (by decide), Fields.lookup_set_ne (by decide)]
    rw [kept] at key
    have published := congrArg (List.lookup "meta") whole
    rw [lookup_trace _ (by decide) (by decide), Fields.lookup_set_self] at published
    have same : sent.parentTaskId p = textOr p.text (fields.lookup "parent_task_id") := by
      rw [PublishedStatus.parentTaskId, aggregationParentTaskId, Topology.parentTaskId, published]
      dsimp only
      rw [Fields.lookup_set_ne (by decide), Fields.lookup_set_ne (by decide)]
    have named : sent.shard =
        some (p.shardOf (textOr p.text (fields.lookup "parent_task_id"))) := by
      rw [PublishedStatus.shard, published]
      dsimp only
      rw [Fields.lookup_set_ne (by decide), Fields.lookup_set_self]
    rw [same]
    exact ⟨nonempty, named, key, fields, given, rfl⟩
  · cases h

theorem publishStatus_ok (h : p.publishStatus before inside event = .ok sent) :
    sent.routingKey = p.text.str (((normalizeContractAliases p.text
      (p.prepareStatusPayload before event) none).lookup "task_id").getD (.str "")) := by
  obtain ⟨routingKey, routed, h⟩ := bind_ok.mp h
  obtain ⟨-, rfl⟩ := publishStatusPayload_ok h
  rw [mapError_ok, taskIdRoutingKey, refuseIf_bind_ok] at routed
  exact (Except.ok.inj routed.2).symm

end StatusPublisher

/-! ## Shards partition the events -/

/-- The sets of shards are disjoint and cover all shards. -/
structure Partitions (shardCount : Int) (family : List (List Int)) : Prop where
  apart : family.Pairwise List.Disjoint
  covers : ∀ s, (∃ shards ∈ family, s ∈ shards) ↔ 0 ≤ s ∧ s < max 1 shardCount

/-- The queues are what the calls of `ensure_aggregation_queue` declare. -/
def Declared (t : ShardedAggregationTopology) (calls : List (List Int × Option String))
    (queues : List AggregationQueue) : Prop :=
  List.Forall₂ (fun call q => t.ensureAggregationQueue call.1 call.2 = .ok q) calls queues

section Queues

variable {calls : List (List Int × Option String)} {queues : List AggregationQueue}
  {M : AggregationQueue → Prop} {shard : Int}

/-- Of disjoint sets one has the shard, so of their queues one gets the event. -/
theorem one_queue (bound : List.Forall₂ (fun call q => M q ↔ shard ∈ call.1) calls queues)
    (apart : (calls.map Prod.fst).Pairwise List.Disjoint)
    (covered : ∃ call ∈ calls, shard ∈ call.1) : ∃ q ∈ queues, M q ∧ ∀ r ∈ queues, M r → r = q := by
  induction bound with
  | nil =>
    obtain ⟨call, none_left, -⟩ := covered
    cases none_left
  | @cons call q calls queues here later ih =>
    rw [List.map_cons, List.pairwise_cons] at apart
    by_cases mine : shard ∈ call.1
    · refine ⟨q, List.mem_cons_self, here.mpr mine, fun r hr matched => ?_⟩
      rcases List.mem_cons.mp hr with rfl | hr
      · rfl
      · obtain ⟨call', hcall, both⟩ := exists_of_forall₂ later hr
        exact absurd (both.mp matched)
          (List.disjoint_left.mp (apart.1 _ (List.mem_map_of_mem hcall)) mine)
    · obtain ⟨call', hcall, member⟩ := covered
      have rest : call' ∈ calls := by
        refine (List.mem_cons.mp hcall).resolve_left ?_
        rintro rfl
        exact mine member
      obtain ⟨r, hr, matched, only⟩ := ih apart.2 ⟨call', rest, member⟩
      refine ⟨r, List.mem_cons_of_mem _ hr, matched, fun r' hr' matched' => ?_⟩
      rcases List.mem_cons.mp hr' with rfl | hr'
      · exact absurd (here.mp matched') mine
      · exact only r' hr' matched'

end Queues

/-- Each aggregation event goes to the one queue that is bound to its shard, and a status to the
queues that are bound to its task id. -/
theorem aggregation_events_partition (p : StatusPublisher)
    (calls : List (List Int × Option String)) (queues : List AggregationQueue)
    (plain : Plain p.topology.aggregationRoutingPrefix)
    (declared : Declared p.topology calls queues)
    (partition : Partitions p.topology.shardCount (calls.map Prod.fst)) :
    (∀ before inside event sent, p.publishAggregationStatus before inside event = .ok sent →
      ∃ shard, sent.shard = some shard ∧
        (∀ given, p.topology.aggregationShard p.text p.digest event.toDict = .ok given →
          given = shard) ∧
        (∃! name, ∃ q ∈ queues, q.name = name ∧ q.Matches sent.routingKey) ∧
        List.Forall₂ (fun call q => q.Matches sent.routingKey ↔ shard ∈ call.1) calls queues) ∧
    (∀ before inside event sent before' inside' event' sent',
      p.publishAggregationStatus before inside event = .ok sent →
      p.publishAggregationStatus before' inside' event' = .ok sent' →
      sent.parentTaskId p = sent'.parentTaskId p → sent.routingKey = sent'.routingKey) ∧
    (p.topology.NamesApart → ∀ shards other name,
      p.topology.aggregationQueueName shards none = .ok name →
      p.topology.aggregationQueueName other none = .ok name → ∀ s, s ∈ shards ↔ s ∈ other) ∧
    (∀ before inside event sent, p.publishStatus before inside event = .ok sent →
      sent.routingKey = p.text.str (((normalizeContractAliases p.text
        (p.prepareStatusPayload before event) none).lookup "task_id").getD (.str "")) ∧
      List.Forall₂ (fun call q => q.Matches sent.routingKey ↔
        ∃ s ∈ call.1, sent.routingKey = shardKey p.topology.aggregationRoutingPrefix s)
        calls queues) := by
  have bound (routingKey : String) : List.Forall₂ (fun call q => q.Matches routingKey ↔
      ∃ s ∈ call.1, routingKey = shardKey p.topology.aggregationRoutingPrefix s) calls queues :=
    declared.imp fun _ _ ensured => ShardedAggregationTopology.matches_iff plain ensured
  refine ⟨?_, ?_, fun apart shards other name => ShardedAggregationTopology.aggregationQueueName_inj
    apart, fun before inside event sent published =>
      ⟨StatusPublisher.publishStatus_ok published, bound sent.routingKey⟩⟩
  · intro before inside event sent published
    obtain ⟨nonempty, shard, key, fields, prepared, parent⟩ :=
      StatusPublisher.publishAggregationStatus_ok published
    have inRange : 0 ≤ p.shardOf (sent.parentTaskId p) ∧
        p.shardOf (sent.parentTaskId p) < max 1 p.topology.shardCount :=
      ⟨Int.emod_nonneg _ (by omega), Int.emod_lt_of_pos _ (by omega)⟩
    have matched : List.Forall₂ (fun call q => q.Matches sent.routingKey ↔
        p.shardOf (sent.parentTaskId p) ∈ call.1) calls queues := by
      refine List.Forall₂.mp (fun call q here ensured => here.trans ?_) (bound sent.routingKey)
        declared
      rw [key]
      constructor
      · rintro ⟨s, hs, same⟩
        have nonneg := (ShardedAggregationTopology.ensureAggregationQueue_ok ensured).1 s hs
        exact shardKey_inj inRange.1 nonneg same ▸ hs
      · exact fun member => ⟨_, member, rfl⟩
    refine ⟨_, shard, ?_, ?_, matched⟩
    · intro given computed
      obtain ⟨given, rfl⟩ := StatusPublisher.aggregationShard_ok_iff.mp computed
      -- A given parent id is in a `meta` that is a mapping, and this is the payload's.
      obtain ⟨outer, has⟩ : ∃ v, event.toDict.lookup "meta" = some v := by
        refine Option.ne_none_iff_exists'.mp fun absent => given ?_
        rw [aggregationParentTaskId, Topology.parentTaskId, absent]
        rfl
      obtain rfl := StatusPublisher.prepared_meta_of_given has prepared
      rw [aggregationParentTaskId, Topology.parentTaskId, has]
      exact congrArg _ parent
    · have covered : ∃ call ∈ calls, p.shardOf (sent.parentTaskId p) ∈ call.1 := by
        obtain ⟨shards, member, here⟩ := (partition.covers _).mpr inRange
        obtain ⟨call, hcall, rfl⟩ := List.mem_map.mp member
        exact ⟨call, hcall, here⟩
      obtain ⟨q, hq, matches_, only⟩ := one_queue matched partition.apart covered
      refine ⟨q.name, ⟨q, hq, rfl, matches_⟩, ?_⟩
      rintro _ ⟨r, hr, rfl, matched'⟩
      rw [only r hr matched']
  · intro before inside event sent before' inside' event' sent' published published' same
    obtain ⟨-, -, key, -⟩ := StatusPublisher.publishAggregationStatus_ok published
    obtain ⟨-, -, key', -⟩ := StatusPublisher.publishAggregationStatus_ok published'
    rw [key, key', same]

/-- A publisher of a topology with two shards. -/
def twoShards : StatusPublisher where
  text := plainText
  toJson v := .ok (String.toUTF8 <| match v.get "meta" with
    | none =>
      "\x7b\"task_id\":\"agg.0\",\"event_id\":\"1\",\"correlation_id\":\"agg.0\"\x7d"
    | some _ =>
      "\x7b\"task_id\":\"child\",\"event_id\":\"1\",\"meta\":\x7b\"parent_task_id\":" ++
        "\"parents\",\"aggregation_shard\":1,\"aggregation_role\":\"aggregation\"\x7d," ++
        "\"correlation_id\":\"child\"\x7d").toList
  digest key := key.length
  aliasConfig := none
  topology := { shardCount := 2 }

def shardQueue (shard : Int) : AggregationQueue where
  name := "aggregation.queue." ++ toString shard
  arguments := []
  bindingKeys := ["agg." ++ toString shard]

def twoShardCalls : List (List Int × Option String) := [([0], none), ([1], none)]

def twoShardQueues : List AggregationQueue := [shardQueue 0, shardQueue 1]

theorem twoShardQueues_declared : Declared twoShards.topology twoShardCalls twoShardQueues := by
  have normal (s : Int) (h : s = 0 ∨ s = 1) :
      twoShards.topology.normalizeShards [s] = .ok [s] := by
    refine ShardedAggregationTopology.normalizeShards_ok_iff.mpr ⟨by simp, ?_, ?_⟩
    · rcases h with rfl | rfl <;> decide
    · simp [ShardedAggregationTopology.sortedShards]
  have ensured (s : Int) (h : s = 0 ∨ s = 1) :
      twoShards.topology.ensureAggregationQueue [s] none = .ok (shardQueue s) := by
    refine bind_ok.mpr ⟨[s], normal s h, ?_⟩
    refine bind_ok.mpr ⟨_, bind_ok.mpr ⟨[s], normal s h, rfl⟩, ?_⟩
    refine bind_ok.mpr ⟨[], rfl, ?_⟩
    exact bind_ok.mpr ⟨_, bind_ok.mpr ⟨[s], normal s h, rfl⟩, by rcases h with rfl | rfl <;> rfl⟩
  exact .cons (ensured 0 (.inl rfl)) (.cons (ensured 1 (.inr rfl)) .nil)

theorem plain_agg : Plain "agg" := by
  rw [Plain, words_of_plain (by decide)]
  decide

/-- A status of a child of the task `parents`. -/
def childEvent : StatusPayload :=
  .mapping [("task_id", .str "child"), ("event_id", .str "1"),
    ("meta", .dict [("parent_task_id", .str "parents")])]

theorem aggregation_events_partition_twoShards : ∃ sent,
    twoShards.publishAggregationStatus none none childEvent = .ok sent ∧
      sent.shard = some 1 ∧ (shardQueue 1).Matches sent.routingKey ∧
        ¬(shardQueue 0).Matches sent.routingKey := by
  have covers : Partitions twoShards.topology.shardCount (twoShardCalls.map Prod.fst) := by
    refine ⟨List.pairwise_pair.mpr (by simp), fun s => ?_⟩
    have two : max 1 twoShards.topology.shardCount = 2 := rfl
    rw [two]
    constructor
    · rintro ⟨shards, member, here⟩
      simp only [twoShardCalls, List.map_cons, List.map_nil, List.mem_cons, List.not_mem_nil,
        or_false] at member
      rcases member with rfl | rfl <;> obtain rfl := List.mem_singleton.mp here <;> decide
    · rintro ⟨low, high⟩
      obtain rfl | rfl : s = 0 ∨ s = 1 := by omega
      · exact ⟨[0], by decide, by decide⟩
      · exact ⟨[1], by decide, by decide⟩
  have partition := (aggregation_events_partition twoShards twoShardCalls twoShardQueues plain_agg
    twoShardQueues_declared covers).1
  refine ⟨_, rfl, rfl, ?_⟩
  obtain ⟨shard, written, -, -, bound⟩ := partition none none childEvent _ rfl
  obtain rfl : (1 : Int) = shard := Option.some.inj written
  obtain ⟨first, rest⟩ := List.forall₂_cons.mp bound
  obtain ⟨second, -⟩ := List.forall₂_cons.mp rest
  exact ⟨second.mpr (by decide), fun here => absurd (first.mp here) (by decide)⟩

/-- A status of the task `agg.0` reaches the queue of the shard. -/
theorem status_reaches_aggregation_queue : ∃ sent,
    twoShards.publishStatus none none
      (.mapping [("task_id", .str "agg.0"), ("event_id", .str "1")]) = .ok sent ∧
      (shardQueue 0).Matches sent.routingKey := by
  refine ⟨_, rfl, "agg.0", List.mem_singleton.mpr rfl, ?_⟩
  have plain : Plain (shardKey "agg" 0) := plain_agg.shardKey le_rfl
  exact plain.produces_iff.mpr rfl

end Relayna.Rabbitmq
