import Relayna.Consumer.ContractStore
import Relayna.Contracts.Aliases
import Relayna.Foundation.JsonKeys
import Relayna.Foundation.Names
import Relayna.Foundation.Texts

/-!
# What the keys of a contract store tell apart

The dedup key of a message ends with its signature, a digest of the JSON text of its task, its
action and its dedup fields. A text with sorted keys forgets nothing but their order, so the key
tells any two messages apart that differ in one of these. An in-flight key has no signature: the
records of one key are told apart by their fields, which are the signatures.
-/
namespace Relayna.Consumer

open Python Contracts Storage

/-- The texts that keys are made of. Digests are hexadecimal, and no two texts have the same. -/
structure KeyTexts where
  str : Value → String
  str_str : ∀ s, str (.str s) = s
  floats : Json.FloatRepr
  sha256 : String → String
  sha256_injective : Function.Injective sha256
  sha256_hex : ∀ text, ':' ∉ (sha256 text).toList
  sha256_long : ∀ text, 16 ≤ (sha256 text).toList.length

def KeyTexts.text (x : KeyTexts) : Text where
  str := x.str
  dumps := Json.dumps x.floats x.str
  sha256 := x.sha256
  str_str := x.str_str

/-- `payload.get(field)`. -/
def DedupScope.value (scope : DedupScope) (field : String) : Value :=
  (scope.payload.lookup field).getD .none

def DedupScope.material (scope : DedupScope) : Value :=
  .dict [("task_id", .str scope.taskId), ("action", (scope.action.map .str).getD .none),
    ("fields", dedupFields scope)]

/-! ## Dedup fields -/

section Fields

variable (fields : List String) (d : Fields Value) (g : String → Value)

theorem lookup_foldl_set (key : String) :
    (fields.foldl (fun d field => Fields.set d field (g field)) d).lookup key =
      if key ∈ fields then some (g key) else d.lookup key := by
  induction fields generalizing d with
  | nil => simp
  | cons field fields ih =>
    rw [List.foldl_cons, ih]
    by_cases later : key ∈ fields
    · rw [if_pos later, if_pos (List.mem_cons_of_mem _ later)]
    · rw [if_neg later]
      by_cases same : key = field
      · subst same
        rw [Fields.lookup_set_self, if_pos List.mem_cons_self]
      · rw [Fields.lookup_set_ne same, if_neg fun mem => (List.mem_cons.mp mem).elim same later]

variable {d}

theorem keys_foldl_set (keys : (d.map Prod.fst).Nodup) :
    ((fields.foldl (fun d field => Fields.set d field (g field)) d).map Prod.fst).Nodup := by
  induction fields generalizing d with
  | nil => exact keys
  | cons field fields ih => exact ih (Fields.keys_set keys)

end Fields

/-- The fields of a scope: every dedup field with its value. -/
theorem dedupFields_eq (scope : DedupScope) :
    ∃ d, dedupFields scope = .dict d ∧ (d.map Prod.fst).Nodup ∧
      ∀ key v, (key, v) ∈ d ↔ key ∈ scope.dedupKeyFields ∧ v = scope.value key := by
  have keys := keys_foldl_set (d := []) scope.dedupKeyFields scope.value List.nodup_nil
  refine ⟨_, rfl, keys, fun key v => ?_⟩
  have found := lookup_foldl_set scope.dedupKeyFields [] scope.value key
  constructor
  · intro mem
    have held := Fields.lookup_of_mem keys mem
    rw [found] at held
    split_ifs at held with inside
    · exact ⟨inside, (Option.some.inj held).symm⟩
    · cases held
  · rintro ⟨inside, rfl⟩
    rw [if_pos inside] at found
    exact Fields.mem_of_lookup found

/-! ## Signatures -/

variable {str : Value → String} {scope other : DedupScope}

theorem sortFields_material (task action fields : Json.Document) :
    Json.sortFields [("task_id", task), ("action", action), ("fields", fields)] =
      [("action", action), ("fields", fields), ("task_id", task)] := by
  have af : "action" ≤ "fields" := by decide
  have tf : ¬"task_id" ≤ "fields" := by decide
  have ta : ¬"task_id" ≤ "action" := by decide
  simp only [Json.sortFields, List.insertionSort, List.foldr, List.orderedInsert, af, tf, ta,
    if_true, if_false]

open Json in
theorem canonical_material_iff :
    canonical str scope.material = canonical str other.material ↔
      scope.taskId = other.taskId ∧ scope.action = other.action ∧
        canonical str (dedupFields scope) = canonical str (dedupFields other) := by
  have action : canonical str ((scope.action.map .str).getD .none) =
      canonical str ((other.action.map .str).getD .none) ↔ scope.action = other.action := by
    cases scope.action <;> cases other.action <;> simp [canonical]
  rw [← action]
  simp only [DedupScope.material, canonical, canonicalFields, sortFields_material,
    Document.dict.injEq, List.cons.injEq, Prod.mk.injEq, true_and, and_true, Document.str.injEq]
  constructor
  · rintro ⟨actions, fields, tasks⟩
    exact ⟨tasks, actions, fields⟩
  · rintro ⟨tasks, actions, fields⟩
    exact ⟨actions, fields, tasks⟩

/-- The payload of a scope is made of JSON values. -/
def DedupScope.HasJson (scope : DedupScope) : Prop := ∀ f ∈ scope.payload, Json.IsJson f.2

theorem DedupScope.HasJson.value (h : scope.HasJson) (field : String) :
    Json.IsJson (scope.value field) := by
  rw [DedupScope.value]
  cases found : scope.payload.lookup field with
  | none =>
    rw [Option.getD_none, Json.IsJson]
    all_goals simp
  | some v => exact h _ (Fields.mem_of_lookup found)

open Json in
/-- The dedup fields of two messages of one stage have the same text if their values agree. -/
theorem canonical_dedupFields_iff (hs : scope.HasJson) (ho : other.HasJson)
    (same : ∀ field, field ∈ scope.dedupKeyFields ↔ field ∈ other.dedupKeyFields) :
    canonical str (dedupFields scope) = canonical str (dedupFields other) ↔
      ∀ field ∈ scope.dedupKeyFields, Agree (scope.value field) (other.value field) := by
  obtain ⟨d, hd, keys, mem⟩ := dedupFields_eq scope
  obtain ⟨e, he, keys', mem'⟩ := dedupFields_eq other
  have names : ∀ key, key ∈ d.map Prod.fst ↔ key ∈ e.map Prod.fst := by
    intro key
    simp only [List.mem_map, Prod.exists, exists_and_right, exists_eq_right, mem, mem',
      same]
  rw [hd, he, canonical, canonical, Document.dict.injEq, sortFields_canonical_iff keys keys']
  constructor
  · rintro ⟨-, values⟩ field hf
    have value := values (field, scope.value field) ((mem _ _).mpr ⟨hf, rfl⟩) (other.value field)
      ((mem' _ _).mpr ⟨(same field).mp hf, rfl⟩)
    exact (canonical_eq_iff (hs.value field) (ho.value field)).mp value
  · intro agree
    refine ⟨names, fun ⟨key, v⟩ hf w hw => ?_⟩
    obtain ⟨inside, rfl⟩ := (mem key v).mp hf
    obtain ⟨-, rfl⟩ := (mem' key w).mp hw
    exact (canonical_eq_iff (hs.value key) (ho.value key)).mpr (agree key inside)

theorem material_iff (hs : scope.HasJson) (ho : other.HasJson)
    (same : ∀ field, field ∈ scope.dedupKeyFields ↔ field ∈ other.dedupKeyFields) :
    Json.canonical str scope.material = Json.canonical str other.material ↔
      scope.taskId = other.taskId ∧ scope.action = other.action ∧
        ∀ field ∈ scope.dedupKeyFields,
          Json.Agree (scope.value field) (other.value field) := by
  rw [canonical_material_iff]
  exact and_congr_right' (and_congr_right' (canonical_dedupFields_iff hs ho same))

/-! ## Keys -/

namespace RedisWorkflowContractStore

variable {x : KeyTexts} {s : RedisWorkflowContractStore}

theorem buildDedupSignature_iff (text : s.text = x.text) :
    s.buildDedupSignature scope = s.buildDedupSignature other ↔
      Json.canonical x.str scope.material = Json.canonical x.str other.material := by
  rw [buildDedupSignature, buildDedupSignature, text]
  exact x.sha256_injective.eq_iff.trans Json.dumps_inj

theorem signature_hex (text : s.text = x.text) (scope : DedupScope) :
    ':' ∉ (s.buildDedupSignature scope).toList := by
  rw [buildDedupSignature, text]
  exact x.sha256_hex _

/-- The tag of a key. -/
def tag (s : RedisWorkflowContractStore) (scope : DedupScope) : List Char :=
  (s.text.sha256 (s.keyPrefix ++ "\x1f" ++ slot scope)).toList.take 16

theorem redisKey_parts (text : s.text = x.text) {segments segments' : List String}
    (h : redisKey s.text s.keyPrefix (slot scope) segments =
      redisKey s.text s.keyPrefix (slot other) segments') :
    s.tag scope = s.tag other ∧ ":".intercalate segments = ":".intercalate segments' := by
  have long (scope : DedupScope) : (s.tag scope).length = 16 := by
    rw [tag, List.length_take, text]
    exact min_eq_left (x.sha256_long _)
  have texts := congrArg String.toList h
  simp only [redisKey, String.toList_append, String.toList_ofList, List.append_assoc] at texts
  obtain ⟨tags, rest⟩ := List.append_inj (List.append_cancel_left texts)
    ((long scope).trans (long other).symm)
  exact ⟨tags, String.toList_inj.mp (List.append_cancel_left (List.append_cancel_left
    (List.append_cancel_left rest)))⟩

theorem dedup_segments (stage taskId signature : String) :
    ":".intercalate ["workflow", "contract", stage, "dedup", taskId, signature] =
      "workflow:contract:" ++ (stage ++ (":dedup:" ++ taskId)) ++ ":" ++ signature := by
  rw [← String.toList_inj]
  simp [String.intercalate_cons_cons]

theorem inflight_segments (stage taskId : String) :
    ":".intercalate ["workflow", "contract", stage, "inflight", taskId] =
      "workflow:contract:" ++ (stage ++ (":inflight:" ++ taskId)) := by
  rw [← String.toList_inj]
  simp [String.intercalate_cons_cons]

/-- Messages with the same signature have the same task. -/
theorem taskId_of_signature (text : s.text = x.text)
    (h : s.buildDedupSignature scope = s.buildDedupSignature other) :
    scope.taskId = other.taskId :=
  (canonical_material_iff.mp ((buildDedupSignature_iff text).mp h)).1

theorem dedupKey_inj (text : s.text = x.text) (h : s.dedupKey scope = s.dedupKey other) :
    scope.stage = other.stage ∧ scope.taskId = other.taskId ∧
      s.buildDedupSignature scope = s.buildDedupSignature other := by
  have segments := (redisKey_parts text h).2
  rw [dedup_segments, dedup_segments] at segments
  obtain ⟨names, signature⟩ :=
    Names.last_inj (signature_hex text scope) (signature_hex text other) segments
  have task := taskId_of_signature text signature
  have stage := Names.append_left_inj names
  rw [task] at stage
  exact ⟨(String.append_left_inj _).mp stage, task, signature⟩

theorem dedupKey_iff (text : s.text = x.text) (stage : scope.stage = other.stage) :
    s.dedupKey scope = s.dedupKey other ↔
      Json.canonical x.str scope.material = Json.canonical x.str other.material := by
  rw [← buildDedupSignature_iff text]
  constructor
  · intro h
    exact (dedupKey_inj text h).2.2
  · intro signature
    have task := taskId_of_signature text signature
    have slots : slot scope = slot other := by
      unfold slot
      rw [stage, task]
    rw [dedupKey, dedupKey, slots, stage, task, signature]

theorem inflightKey_inj (text : s.text = x.text) (h : s.inflightKey scope = s.inflightKey other)
    (signature : s.buildDedupSignature scope = s.buildDedupSignature other) :
    scope.stage = other.stage ∧ scope.taskId = other.taskId := by
  have segments := (redisKey_parts text h).2
  rw [inflight_segments, inflight_segments] at segments
  have task := taskId_of_signature text signature
  have stage := Names.append_left_inj segments
  rw [task] at stage
  exact ⟨(String.append_left_inj _).mp stage, task⟩

/-- Of two names of one slot, the one with a longer word before its task ends with a text of the
difference. -/
theorem length_of_slots {start stage taskId sig stage' taskId' : String}
    (slots : start ++ stage ++ ":" ++ taskId = start ++ stage' ++ ":" ++ taskId')
    (names : "workflow:contract:" ++ (stage ++ (":dedup:" ++ taskId)) ++ ":" ++ sig =
      "workflow:contract:" ++ (stage' ++ (":inflight:" ++ taskId'))) : sig.toList.length = 2 := by
  have slots' := congrArg (fun text => text.toList.length) slots
  have names' := congrArg (fun text => text.toList.length) names
  simp only [String.toList_append, List.length_append] at slots' names'
  have dedup : ":dedup:".toList.length = 7 := rfl
  have inflight : ":inflight:".toList.length = 10 := rfl
  have colon : ":".toList.length = 1 := rfl
  omega

/-- The key of a dedup record has a signature that is longer than what the two texts differ by. -/
theorem dedupKey_eq_inflightKey (text : s.text = x.text)
    (h : s.dedupKey scope = s.inflightKey other) :
    slot scope ≠ slot other ∧ s.tag scope = s.tag other := by
  obtain ⟨tags, segments⟩ := redisKey_parts text h
  refine ⟨fun slots => ?_, tags⟩
  rw [dedup_segments, inflight_segments] at segments
  have short := length_of_slots slots segments
  have long : 16 ≤ (s.buildDedupSignature scope).toList.length := by
    rw [buildDedupSignature, text]
    exact x.sha256_long _
  omega

end RedisWorkflowContractStore

def KeyTexts.store (x : KeyTexts) (keyPrefix : String) (ttlSeconds : Option Int)
    (dumps : Value → String) : RedisWorkflowContractStore := ⟨keyPrefix, ttlSeconds, x.text, dumps⟩

open RedisWorkflowContractStore in
/-- The dedup key of a message stands for its stage, its task, its action and the values of its
dedup fields, whatever their order. An in-flight record is told apart by its key and its field
together, and a dedup key is an in-flight key only if the tags of two slots collide. -/
theorem dedup_keys_exact (x : KeyTexts) (keyPrefix : String) (ttlSeconds : Option Int)
    (dumps : Value → String) :
    (∀ scope other : DedupScope, scope.stage = other.stage →
      (∀ field, field ∈ scope.dedupKeyFields ↔ field ∈ other.dedupKeyFields) → scope.HasJson →
      other.HasJson →
        ((x.store keyPrefix ttlSeconds dumps).dedupKey scope =
            (x.store keyPrefix ttlSeconds dumps).dedupKey other ↔
          scope.taskId = other.taskId ∧ scope.action = other.action ∧
            ∀ field ∈ scope.dedupKeyFields, Json.Agree (scope.value field) (other.value field))) ∧
    (∀ scope other : DedupScope,
      (x.store keyPrefix ttlSeconds dumps).dedupKey scope =
          (x.store keyPrefix ttlSeconds dumps).dedupKey other →
        scope.stage = other.stage ∧ scope.taskId = other.taskId ∧
          (x.store keyPrefix ttlSeconds dumps).buildDedupSignature scope =
            (x.store keyPrefix ttlSeconds dumps).buildDedupSignature other) ∧
    (∀ scope other : DedupScope,
      (x.store keyPrefix ttlSeconds dumps).inflightKey scope =
          (x.store keyPrefix ttlSeconds dumps).inflightKey other →
      (x.store keyPrefix ttlSeconds dumps).buildDedupSignature scope =
          (x.store keyPrefix ttlSeconds dumps).buildDedupSignature other →
        scope.stage = other.stage ∧ scope.taskId = other.taskId) ∧
    (∀ scope other : DedupScope,
      (x.store keyPrefix ttlSeconds dumps).dedupKey scope =
          (x.store keyPrefix ttlSeconds dumps).inflightKey other →
        slot scope ≠ slot other ∧ (x.store keyPrefix ttlSeconds dumps).tag scope =
          (x.store keyPrefix ttlSeconds dumps).tag other) := by
  generalize store : x.store keyPrefix ttlSeconds dumps = s
  have text : s.text = x.text := by
    rw [← store]
    rfl
  refine ⟨fun scope other stage same hs ho => ?_, fun scope other h => dedupKey_inj text h,
    fun scope other h signature => inflightKey_inj text h signature,
    fun scope other h => dedupKey_eq_inflightKey text h⟩
  rw [dedupKey_iff text stage]
  exact material_iff hs ho same

/-! ## In-flight keys of two stages -/

theorem sampleFloats_chars {multiple : Int} {c : Char}
    (mem : c ∈ (toString multiple).toList ++ ['.', '0']) :
    c.isDigit = true ∨ c ∈ ['.', 'e', '+', '-'] := by
  rcases List.mem_append.mp mem with digits | last
  · rcases Json.chars_int digits with digit | rfl
    · exact Or.inl digit
    · exact Or.inr (by decide)
  · rw [List.mem_cons, List.mem_singleton] at last
    rcases last with rfl | rfl
    · exact Or.inr (by decide)
    · exact Or.inl (by decide)

def sampleFloats : Json.FloatRepr where
  text multiple := (toString multiple).toList ++ ['.', '0']
  injective _ _ same :=
    Json.toString_int_inj (String.toList_inj.mp (List.append_cancel_right same))
  chars _ _ mem := sampleFloats_chars mem
  marked _ := ⟨'.', List.mem_append_right _ List.mem_cons_self, Or.inl rfl⟩

/-- Digests of which no two are the same. -/
noncomputable def sampleSha256 (text : String) : String :=
  String.ofList (List.replicate (@Texts.number _ Texts.countable_string text + 16) 'a')

theorem sampleSha256_injective : Function.Injective sampleSha256 := by
  intro text other same
  have lengths := congrArg (fun text => text.toList.length) same
  simp only [sampleSha256, String.toList_ofList, List.length_replicate] at lengths
  exact @Texts.number_injective _ Texts.countable_string _ _ _ (Nat.add_right_cancel lengths)

theorem sampleSha256_hex (text : String) : ':' ∉ (sampleSha256 text).toList := by
  rw [sampleSha256, String.toList_ofList]
  intro mem
  exact absurd (List.eq_of_mem_replicate mem) (by decide)

theorem sampleSha256_long (text : String) : 16 ≤ (sampleSha256 text).toList.length := by
  rw [sampleSha256, String.toList_ofList, List.length_replicate]
  exact Nat.le_add_left _ _

def sampleStr : Value → String
  | .str s => s
  | _ => ""

noncomputable def sampleTexts : KeyTexts where
  str := sampleStr
  str_str _ := rfl
  floats := sampleFloats
  sha256 := sampleSha256
  sha256_injective := sampleSha256_injective
  sha256_hex := sampleSha256_hex
  sha256_long := sampleSha256_long

/-- A message without a payload. -/
def bareScope (stage taskId : String) : DedupScope where
  stage
  taskId
  action := none
  payload := []
  dedupKeyFields := []

/-- Two fields of a payload, in the order given. -/
def pairScope (payload : Fields Value) : DedupScope where
  stage := "a"
  taskId := "t"
  action := some "run"
  payload
  dedupKeyFields := ["x", "y"]

/-- The order of a payload and a field that is not there do not show. -/
theorem dedup_keys_unordered :
    (sampleTexts.store "relayna" none sampleStr).dedupKey
        (pairScope [("x", .int 1), ("y", .none)]) =
      (sampleTexts.store "relayna" none sampleStr).dedupKey
        (pairScope [("z", .bool true), ("x", .int 1)]) := by
  refine ((dedup_keys_exact sampleTexts "relayna" none sampleStr).1 _ _ rfl (fun _ => Iff.rfl)
    ?_ ?_).mpr ⟨rfl, rfl, ?_⟩
  · simp [DedupScope.HasJson, pairScope, Json.IsJson]
  · simp [DedupScope.HasJson, pairScope, Json.IsJson]
  · have missing : List.lookup "y" [("x", Value.int 1), ("y", Value.none)] = some .none := by
      rfl
    simp [pairScope, DedupScope.value, missing, Json.Agree]

open RedisWorkflowContractStore in
theorem inflightKey_shared (s : RedisWorkflowContractStore) :
    s.inflightKey (bareScope "a" "inflight:c") = s.inflightKey (bareScope "a:inflight" "c") := by
  have slots : slot (bareScope "a" "inflight:c") = slot (bareScope "a:inflight" "c") := by
    decide
  have segments : ":".intercalate ["workflow", "contract", "a", "inflight", "inflight:c"] =
      ":".intercalate ["workflow", "contract", "a:inflight", "inflight", "c"] := by
    decide
  unfold inflightKey redisKey bareScope
  rw [bareScope, bareScope] at slots
  rw [slots, segments]

/-- A colon in a stage or in a task moves the word between them: the keys of two messages are the
same. -/
theorem inflight_keys_collide :
    ¬ ∀ scope other : DedupScope,
      (sampleTexts.store "relayna" none sampleStr).inflightKey scope =
          (sampleTexts.store "relayna" none sampleStr).inflightKey other →
        scope.stage = other.stage ∧ scope.taskId = other.taskId := by
  intro apart
  exact absurd (apart _ _ (inflightKey_shared _)).1 (by decide)

end Relayna.Consumer
