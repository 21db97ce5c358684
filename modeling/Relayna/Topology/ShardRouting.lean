import Relayna.Contracts.Aliases
import Relayna.Foundation.Names
import Relayna.Foundation.Words
import Relayna.Topology.TopicMatch
import Relayna.Topology.Workflow
import Mathlib.Data.Finset.Sort

/-!
# Shards of aggregation events

`ShardRoutingStrategy` sends a status event to one of the shards by a digest of its key, and
`SharedTasksSharedStatusShardedAggregationTopology` binds a queue to the shards it is asked for.
The two agree because both write a shard after the same routing prefix, and because a routing key
is read word by word. The digest is a parameter, a function from texts to numbers. The routed
topology has the same methods.
-/
namespace Relayna.Topology

open Python Contracts Failing

/-- `TaskIdRoutingStrategy.status_routing_key`, which is that of a topology without a routing
strategy of its own. -/
def taskIdRoutingKey (text : Text) (event : Fields Value)
    (aliasConfig : Option ContractAliasConfig) : Except TopologyError String := do
  let normalized := normalizeContractAliases text event aliasConfig
  let taskId := text.str ((normalized.lookup "task_id").getD (.str ""))
  refuseIf (taskId = "") "status event missing task_id"
  return taskId

/-- `str(value or "")`. -/
def textOr (text : Text) (v : Option Value) : String :=
  match v with
  | some v => if v.truthy then text.str v else ""
  | none => ""

/-- `meta.get("parent_task_id")`, of an event whose `meta` is a mapping. -/
def parentTaskId (event : Fields Value) : Option Value :=
  match event.lookup "meta" with
  | some (.dict fields) => fields.lookup "parent_task_id"
  | _ => none

/-- `aggregation_parent_task_id`. -/
def aggregationParentTaskId (text : Text) (event : Fields Value) : String :=
  textOr text (parentTaskId event)

/-- The key that `ShardRoutingStrategy` uses without an extractor. -/
def defaultShardKey (text : Text) (event : Fields Value) : String :=
  textOr text (((parentTaskId event).filter Value.truthy).or (event.lookup "task_id"))

structure ShardRoutingStrategy where
  shardCount : Int
  routingPrefix : String
  keyExtractor : Option (Fields Value → String)
  aliasConfig : Option ContractAliasConfig

namespace ShardRoutingStrategy

variable (s : ShardRoutingStrategy) (text : Text) (digest : String → Nat)

/-- `shard_for_event`. -/
def shardForEvent (event : Fields Value) : Except TopologyError Int := do
  let normalized := normalizeContractAliases text event s.aliasConfig
  let key := match s.keyExtractor with
    | some extract => extract normalized
    | none => defaultShardKey text normalized
  refuseIf (key = "") "status event missing shard key"
  return (digest key : Int) % s.shardCount

/-- `status_routing_key`. -/
def statusRoutingKey (event : Fields Value) : Except TopologyError String := do
  let shard ← s.shardForEvent text digest event
  return s!"{s.routingPrefix}.{shard}"

end ShardRoutingStrategy

/-- The part of `SharedTasksSharedStatusShardedAggregationTopology` that aggregation uses. The
template is the function `aggregation_queue_template.format`. -/
structure ShardedAggregationTopology where
  shardCount : Int := 1
  aggregationRoutingPrefix : String := "agg"
  aggregationQueueTemplate : Int → String := fun shard => s!"aggregation.queue.{shard}"
  aggregationQueueNamePrefix : String := "aggregation.queue.shards"
  aggregationConsumerTimeoutMs : Option Int := none
  aggregationSingleActiveConsumer : Option Bool := none
  aggregationMaxPriority : Option Int := none
  aggregationQueueType : Option String := none
  aggregationQueueArgumentsOverrides : Fields Value := []
  aggregationQueueKwargs : Fields Value := []

/-- A queue that has been declared, with its bindings to the status exchange. -/
structure AggregationQueue where
  name : String
  arguments : Fields Value
  bindingKeys : List String

namespace ShardedAggregationTopology

variable (t : ShardedAggregationTopology) (text : Text) (digest : String → Nat)

/-- `_aggregation_routing`. -/
def aggregationRouting : ShardRoutingStrategy where
  shardCount := max 1 t.shardCount
  routingPrefix := t.aggregationRoutingPrefix
  keyExtractor := some (aggregationParentTaskId text)
  aliasConfig := none

/-- `_normalize_shards`. -/
def normalizeShards (shards : List Int) : Except TopologyError (List Int) := do
  refuseIf (shards = []) "At least one aggregation shard must be selected"
  let normalized := shards.toFinset.sort (· ≤ ·)
  let shardCount := max 1 t.shardCount
  normalized.forM fun shard => refuseIf (shard < 0 ∨ shard ≥ shardCount)
    s!"Aggregation shard {shard} is outside the configured range 0..{shardCount - 1}"
  return normalized

/-- `_aggregation_queue_name`. -/
def defaultQueueName (shards : List Int) : String :=
  match shards with
  | [shard] => t.aggregationQueueTemplate shard
  | shards => t.aggregationQueueNamePrefix ++ "." ++ "-".intercalate (shards.map toString)

/-- `aggregation_queue_name`. -/
def aggregationQueueName (shards : List Int) (queueName : Option String) :
    Except TopologyError String := do
  let normalizedShards ← t.normalizeShards shards
  return (queueName.bind nonEmpty).getD (t.defaultQueueName normalizedShards)

/-- `aggregation_binding_keys`. -/
def aggregationBindingKeys (shards : List Int) : Except TopologyError (List String) := do
  let normalizedShards ← t.normalizeShards shards
  return normalizedShards.map fun shard => s!"{t.aggregationRoutingPrefix}.{shard}"

/-- `aggregation_queue_arguments`. -/
def aggregationQueueArguments : Except TopologyError (Fields Value) := do
  let maxPriority ← t.aggregationMaxPriority.mapM fun priority =>
    validateQueueMaxPriority (.int priority) "aggregation"
  let builtins : Fields Value :=
    (t.aggregationConsumerTimeoutMs.map fun n => ("x-consumer-timeout", Value.int n)).toList ++
    (t.aggregationSingleActiveConsumer.map fun b =>
      ("x-single-active-consumer", Value.bool b)).toList ++
    (maxPriority.map fun n => ("x-max-priority", Value.int n)).toList ++
    (t.aggregationQueueType.map fun s => ("x-queue-type", Value.str s)).toList
  let merged ← mergeQueueArguments "aggregation" builtins t.aggregationQueueArgumentsOverrides
    t.aggregationQueueKwargs
  withValidatedQueueMaxPriority merged "aggregation"

/-- `ensure_aggregation_queue`. -/
def ensureAggregationQueue (shards : List Int) (queueName : Option String) :
    Except TopologyError AggregationQueue := do
  let normalizedShards ← t.normalizeShards shards
  let name ← t.aggregationQueueName normalizedShards queueName
  let arguments ← t.aggregationQueueArguments
  let bindingKeys ← t.aggregationBindingKeys normalizedShards
  return { name, arguments, bindingKeys }

/-- `aggregation_shard`. -/
def aggregationShard (event : Fields Value) : Except TopologyError Int :=
  (t.aggregationRouting text).shardForEvent text digest event

/-- `aggregation_status_routing_key`. -/
def aggregationStatusRoutingKey (event : Fields Value) : Except TopologyError String :=
  (t.aggregationRouting text).statusRoutingKey text digest event

end ShardedAggregationTopology

/-! ## Words of a key -/

section Keys

variable {a b key : String} {binding routing : List String}

theorem dot_eq : "." = String.singleton '.' := by decide

theorem words_append (a b : String) : words (a ++ "." ++ b) = words a ++ words b := by
  rw [words, words, words, dot_eq]
  exact Words.splitOn_append a b

theorem words_inj (h : words a = words b) : a = b := by
  rw [words, words, dot_eq] at h
  exact Words.splitOn_inj h

theorem words_of_plain (h : '.' ∉ a.toList) : words a = [a] := by
  rw [words, dot_eq]
  exact Words.splitOn_of_notMem h

/-- A key without wildcards. -/
def Plain (key : String) : Prop := "*" ∉ words key ∧ "#" ∉ words key

/-- Without wildcards a binding stands for itself. -/
theorem produces_plain_iff (star : "*" ∉ binding) (hash : "#" ∉ binding) :
    Produces binding routing ↔ routing = binding := by
  induction binding generalizing routing with
  | nil => exact produces_nil_iff
  | cons token binding ih =>
    rw [List.mem_cons, not_or] at star hash
    cases routing with
    | nil => simp [not_produces_cons_nil (Ne.symm hash.1)]
    | cons word routing =>
      rw [produces_cons_iff (Ne.symm hash.1), ih star.2 hash.2, List.cons.injEq,
        or_iff_right (Ne.symm star.1), eq_comm (a := word)]

theorem Plain.produces_iff (plain : Plain key) : Produces (words key) (words a) ↔ a = key := by
  rw [produces_plain_iff plain.1 plain.2]
  exact ⟨words_inj, congrArg words⟩

end Keys

/-! ## Shards as texts -/

section Shards

variable {shard other : Int} {routingPrefix : String}

/-- The binding key and the routing key of a shard. -/
def shardKey (routingPrefix : String) (shard : Int) : String := s!"{routingPrefix}.{shard}"

theorem shardKey_eq : shardKey routingPrefix shard = routingPrefix ++ "." ++ toString shard := by
  rfl

theorem toString_shard_inj (hs : 0 ≤ shard) (ho : 0 ≤ other)
    (h : toString shard = toString other) : shard = other := by
  obtain ⟨n, rfl⟩ := Int.eq_ofNat_of_zero_le hs
  obtain ⟨m, rfl⟩ := Int.eq_ofNat_of_zero_le ho
  exact congrArg Int.ofNat (Names.toString_inj h)

/-- The text of a shard has digits only. -/
theorem isDigit_of_mem_shard (hs : 0 ≤ shard) {c : Char} (hc : c ∈ (toString shard).toList) :
    c.isDigit = true := by
  obtain ⟨n, rfl⟩ := Int.eq_ofNat_of_zero_le hs
  exact Names.isDigit_of_mem_toString hc

theorem words_shardKey (hs : 0 ≤ shard) :
    words (shardKey routingPrefix shard) = words routingPrefix ++ [toString shard] := by
  have one : words (toString shard) = [toString shard] := by
    refine words_of_plain fun dot => ?_
    simpa using isDigit_of_mem_shard hs dot
  rw [shardKey_eq, words_append, one]

theorem Plain.shardKey (plain : Plain routingPrefix) (hs : 0 ≤ shard) :
    Plain (shardKey routingPrefix shard) := by
  have digits (w : String) {c : Char} (first : w.toList = [c]) (other : c.isDigit = false) :
      w ≠ toString shard := by
    rintro rfl
    have := isDigit_of_mem_shard hs (first ▸ List.mem_singleton_self c)
    rw [other] at this
    cases this
  rw [Plain, words_shardKey hs, List.mem_append, List.mem_append, List.mem_singleton,
    List.mem_singleton, not_or, not_or]
  exact ⟨⟨plain.1, digits "*" rfl (by decide)⟩, ⟨plain.2, digits "#" rfl (by decide)⟩⟩

theorem shardKey_inj (hs : 0 ≤ shard) (ho : 0 ≤ other)
    (h : shardKey routingPrefix shard = shardKey routingPrefix other) : shard = other := by
  rw [shardKey_eq, shardKey_eq] at h
  exact toString_shard_inj hs ho (Names.append_left_inj h)

end Shards

/-! ## Declared queues -/

/-- The queue is bound to the routing key, as the broker reads it. -/
def AggregationQueue.Matches (q : AggregationQueue) (routingKey : String) : Prop :=
  ∃ key ∈ q.bindingKeys, Produces (words key) (words routingKey)

namespace ShardedAggregationTopology

variable {t : ShardedAggregationTopology} {text : Text} {digest : String → Nat}
  {shards other normalized : List Int} {shard : Int} {queueName : Option String}
  {q : AggregationQueue} {event : Fields Value} {name : String}

/-- What `_normalize_shards` makes of shards it accepts. -/
def sortedShards (shards : List Int) : List Int := shards.toFinset.sort (· ≤ ·)

theorem mem_sortedShards : shard ∈ sortedShards shards ↔ shard ∈ shards := by
  rw [sortedShards, Finset.mem_sort, List.mem_toFinset]

theorem sortedShards_idem : sortedShards (sortedShards shards) = sortedShards shards := by
  rw [sortedShards, sortedShards, Finset.sort_toFinset]

theorem normalizeShards_ok_iff : t.normalizeShards shards = .ok normalized ↔
    shards ≠ [] ∧ (∀ s ∈ shards, 0 ≤ s ∧ s < max 1 t.shardCount) ∧
      normalized = sortedShards shards := by
  have range : (sortedShards shards).forM (fun shard =>
      refuseIf (shard < 0 ∨ shard ≥ max 1 t.shardCount)
        s!"Aggregation shard {shard} is outside the configured range 0..{max 1 t.shardCount - 1}") =
        .ok () ↔ ∀ s ∈ shards, 0 ≤ s ∧ s < max 1 t.shardCount := by
    rw [forM_ok_iff]
    simp only [refuseIf_ok, mem_sortedShards, not_or, not_lt, ge_iff_le, not_le]
  rw [normalizeShards, refuseIf_bind_ok, bind_ok]
  refine and_congr_right fun _ => ?_
  constructor
  · rintro ⟨⟨⟩, checked, done⟩
    exact ⟨range.mp checked, (Except.ok.inj done).symm⟩
  · rintro ⟨checked, rfl⟩
    exact ⟨(), range.mpr checked, rfl⟩

theorem normalizeShards_again (h : t.normalizeShards shards = .ok normalized) :
    t.normalizeShards normalized = .ok normalized := by
  obtain ⟨nonempty, range, rfl⟩ := normalizeShards_ok_iff.mp h
  refine normalizeShards_ok_iff.mpr ⟨?_, fun s hs => range s (mem_sortedShards.mp hs),
    sortedShards_idem.symm⟩
  obtain ⟨s, hs⟩ := List.exists_mem_of_ne_nil shards nonempty
  exact List.ne_nil_of_mem (mem_sortedShards.mpr hs)

/-- What `ensure_aggregation_queue` declares. -/
theorem ensureAggregationQueue_ok (h : t.ensureAggregationQueue shards queueName = .ok q) :
    (∀ s ∈ shards, 0 ≤ s) ∧ q.bindingKeys =
      (sortedShards shards).map (shardKey t.aggregationRoutingPrefix) := by
  obtain ⟨normalized, accepted, h⟩ := bind_ok.mp h
  obtain ⟨name, -, h⟩ := bind_ok.mp h
  obtain ⟨arguments, -, h⟩ := bind_ok.mp h
  obtain ⟨keys, bound, h⟩ := bind_ok.mp h
  obtain rfl := Except.ok.inj h
  obtain ⟨again, same, bound⟩ := bind_ok.mp bound
  obtain rfl := Except.ok.inj bound
  obtain rfl := Except.ok.inj ((normalizeShards_again accepted).symm.trans same)
  obtain ⟨-, range, rfl⟩ := normalizeShards_ok_iff.mp accepted
  exact ⟨fun s hs => (range s hs).1, rfl⟩

/-- A queue is bound to the keys of its shards and to nothing else. -/
theorem matches_iff (plain : Plain t.aggregationRoutingPrefix)
    (h : t.ensureAggregationQueue shards queueName = .ok q) {routingKey : String} :
    q.Matches routingKey ↔ ∃ s ∈ shards, routingKey = shardKey t.aggregationRoutingPrefix s := by
  obtain ⟨nonneg, bound⟩ := ensureAggregationQueue_ok h
  rw [AggregationQueue.Matches, bound]
  constructor
  · rintro ⟨key, bound, produces⟩
    obtain ⟨s, hs, rfl⟩ := List.mem_map.mp bound
    have member := mem_sortedShards.mp hs
    exact ⟨s, member, (plain.shardKey (nonneg s member)).produces_iff.mp produces⟩
  · rintro ⟨s, hs, rfl⟩
    exact ⟨_, List.mem_map_of_mem (mem_sortedShards.mpr hs),
      (plain.shardKey (nonneg s hs)).produces_iff.mpr rfl⟩

/-! ### Their names -/

/-- The template tells shards apart and names no queue of several shards. -/
structure NamesApart (t : ShardedAggregationTopology) : Prop where
  template : ∀ s o : Int, 0 ≤ s → 0 ≤ o →
    t.aggregationQueueTemplate s = t.aggregationQueueTemplate o → s = o
  joined : ∀ s : Int, 0 ≤ s → ∀ texts : List String,
    t.aggregationQueueTemplate s ≠ t.aggregationQueueNamePrefix ++ "." ++ "-".intercalate texts

theorem map_toString_inj (hs : ∀ s ∈ shards, 0 ≤ s) (ho : ∀ o ∈ other, 0 ≤ o)
    (h : shards.map toString = other.map toString) : shards = other := by
  induction shards generalizing other with
  | nil => exact (List.map_eq_nil_iff.mp h.symm).symm
  | cons s shards ih =>
    cases other with
    | nil => cases h
    | cons o other =>
      rw [List.forall_mem_cons] at hs ho
      rw [List.map_cons, List.map_cons, List.cons.injEq] at h
      rw [toString_shard_inj hs.1 ho.1 h.1, ih hs.2 ho.2 h.2]

theorem defaultQueueName_several (several : ∀ s, shards ≠ [s]) : t.defaultQueueName shards =
    t.aggregationQueueNamePrefix ++ "." ++ "-".intercalate (shards.map toString) := by
  unfold defaultQueueName
  split
  · next s => exact absurd rfl (several s)
  · rfl

theorem joined_inj (hs : ∀ s ∈ shards, 0 ≤ s) (ho : ∀ o ∈ other, 0 ≤ o) (hs' : shards ≠ [])
    (ho' : other ≠ [])
    (h : "-".intercalate (shards.map toString) = "-".intercalate (other.map toString)) :
    shards = other := by
  have dash : "-" = String.singleton '-' := by decide
  rw [dash] at h
  have texts : shards.map toString = other.map toString := by
    refine Words.intercalate_inj (by simpa using hs') (by simpa using ho') ?_ h
    intro word member dash
    obtain ⟨s, nonneg, rfl⟩ : ∃ s : Int, 0 ≤ s ∧ toString s = word := by
      rcases List.mem_append.mp member with here | here
      · obtain ⟨s, mem, rfl⟩ := List.mem_map.mp here
        exact ⟨s, hs s mem, rfl⟩
      · obtain ⟨s, mem, rfl⟩ := List.mem_map.mp here
        exact ⟨s, ho s mem, rfl⟩
    simpa using isDigit_of_mem_shard nonneg dash
  exact map_toString_inj hs ho texts

theorem one_or_several (shards : List Int) : (∃ s, shards = [s]) ∨ ∀ s, shards ≠ [s] := by
  rw [← not_exists]
  exact Classical.em _

theorem defaultQueueName_inj (apart : t.NamesApart) (hs : ∀ s ∈ shards, 0 ≤ s)
    (ho : ∀ o ∈ other, 0 ≤ o) (hs' : shards ≠ []) (ho' : other ≠ [])
    (h : t.defaultQueueName shards = t.defaultQueueName other) : shards = other := by
  obtain ⟨s, rfl⟩ | several := one_or_several shards
  · obtain ⟨o, rfl⟩ | several' := one_or_several other
    · rw [apart.template s o (hs s (by simp)) (ho o (by simp)) h]
    · rw [defaultQueueName_several several'] at h
      exact absurd h (apart.joined s (hs s (by simp)) _)
  · rw [defaultQueueName_several several] at h
    obtain ⟨o, rfl⟩ | several' := one_or_several other
    · exact absurd h.symm (apart.joined o (ho o (by simp)) _)
    · rw [defaultQueueName_several several'] at h
      exact joined_inj hs ho hs' ho' (Names.append_left_inj h)

/-- Queues of different shards have different default names. -/
theorem aggregationQueueName_inj (apart : t.NamesApart)
    (hs : t.aggregationQueueName shards none = .ok name)
    (ho : t.aggregationQueueName other none = .ok name) (s : Int) : s ∈ shards ↔ s ∈ other := by
  obtain ⟨normalized, accepted, hs⟩ := bind_ok.mp hs
  obtain ⟨normalized', accepted', ho⟩ := bind_ok.mp ho
  have same : t.defaultQueueName normalized = t.defaultQueueName normalized' :=
    (Except.ok.inj hs).trans (Except.ok.inj ho).symm
  obtain ⟨nonempty, range, -⟩ := normalizeShards_ok_iff.mp (normalizeShards_again accepted)
  obtain ⟨nonempty', range', -⟩ := normalizeShards_ok_iff.mp (normalizeShards_again accepted')
  have equal := defaultQueueName_inj apart (fun s hs => (range s hs).1)
    (fun s hs => (range' s hs).1) nonempty nonempty' same
  obtain ⟨-, -, rfl⟩ := normalizeShards_ok_iff.mp accepted
  obtain ⟨-, -, rfl⟩ := normalizeShards_ok_iff.mp accepted'
  rw [← mem_sortedShards, equal, mem_sortedShards]

/-- The default template and prefix keep the names apart. -/
theorem namesApart_default : NamesApart {} where
  template s o hs ho h := toString_shard_inj hs ho (Names.append_left_inj h)
  joined s hs texts h := by
    -- After `aggregation.queue.` there is a digit or the word `shards`.
    have split : "aggregation.queue.shards" ++ "." ++ "-".intercalate texts =
        "aggregation.queue." ++ ("shards." ++ "-".intercalate texts) := by
      rw [← String.append_assoc]
      rfl
    have h' : "aggregation.queue." ++ toString s =
        "aggregation.queue." ++ ("shards." ++ "-".intercalate texts) := h.trans split
    have texts := congrArg String.toList (Names.append_left_inj h')
    have digit : 's' ∈ (toString s).toList := by
      rw [texts]
      simp
    simpa using isDigit_of_mem_shard hs digit

end ShardedAggregationTopology

end Relayna.Topology
