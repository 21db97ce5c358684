import Mathlib.Data.List.Dedup
import Relayna.Foundation.Names
import Relayna.Observability.ExecutionGraph

/-!
# What the nodes of an execution graph stand for

A node stands for a task, an attempt, a sample and so on: its key. The text that is its id tells
the keys apart, but the key of a sample and of a stage attempt already holds a text in which the
task, the kind or the stage and the time run together.

The keys of the observations are counted off from those that come before: `past` lists these,
newest first.
-/
namespace Relayna.Observability.Execution

open Python Contracts Names

inductive Key
  | task (id : String) | child (id : String)
  | attempt (taskId : String) (number : Nat)
  | sample (text : String)
  | message (messageId : String)
  | stage (text : String) (number : Nat)
  | retry (taskId : String) (number : Nat)
  | dlq (taskId : String) (number : Nat)
  | status (taskId : String) (number : Nat)
  deriving DecidableEq, Repr

namespace Key

def render : Key → String
  | task id => "task:" ++ id
  | child id => "aggregation_child:" ++ id
  | attempt taskId number => attemptId taskId number
  | sample text => "resource-sample:" ++ text
  | message messageId => messageNodeId messageId
  | stage text number => "stage-attempt:" ++ text ++ ":" ++ toString number
  | retry taskId number => retryId taskId number
  | dlq taskId number => dlqId taskId number
  | status taskId number => statusId taskId number

/-- The word that the id begins with. -/
def word : Key → String
  | task _ => "task"
  | child _ => "aggregation_child"
  | attempt _ _ => "task-attempt"
  | sample _ => "resource-sample"
  | message _ => "workflow-message"
  | stage _ _ => "stage-attempt"
  | retry _ _ => "retry"
  | dlq _ _ => "dlq"
  | status _ _ => "status"

theorem family_render (k : Key) : family k.render = k.word.toList := by
  cases k with
  | task id => exact family_append "task:" (by simp [word]) (by simp [word]) id
  | child id =>
    exact family_append "aggregation_child:" (by simp [word]) (by simp [word]) id
  | attempt taskId number =>
    exact family_numbered "task-attempt:" (by simp [word]) (by simp [word]) taskId number
  | sample text =>
    exact family_append "resource-sample:" (by simp [word]) (by simp [word]) text
  | message messageId =>
    exact family_append "workflow-message:" (by simp [word]) (by simp [word]) messageId
  | stage text number =>
    exact family_numbered "stage-attempt:" (by simp [word]) (by simp [word]) text number
  | retry taskId number =>
    exact family_numbered "retry:" (by simp [word]) (by simp [word]) taskId number
  | dlq taskId number =>
    exact family_numbered "dlq:" (by simp [word]) (by simp [word]) taskId number
  | status taskId number =>
    exact family_numbered "status:" (by simp [word]) (by simp [word]) taskId number

theorem render_injective : Function.Injective render := by
  intro k l same
  have words : k.word = l.word := by
    have families := congrArg family same
    rw [family_render, family_render] at families
    exact String.toList_inj.mp families
  cases k <;> cases l <;> first
    | (simp [word] at words; done)
    | skip
  case task.task => exact congrArg task (append_left_inj same)
  case child.child => exact congrArg child (append_left_inj same)
  case sample.sample => exact congrArg sample (append_left_inj same)
  case message.message => exact congrArg message (append_left_inj same)
  all_goals
    obtain ⟨fields, rfl⟩ := numbered_inj same
    rw [append_left_inj fields]

/-- The keys of items of the histories. -/
def isItem : Key → Bool
  | attempt _ _ | sample _ | stage _ _ | dlq _ _ | status _ _ => true
  | task _ | child _ | message _ | retry _ _ => false

def isTask : Key → Bool
  | task _ | child _ => true
  | _ => false

end Key

theorem recordId_eq (taskId : String) (number : Nat) :
    recordId taskId number = (Key.dlq (taskId ++ ":record") number).render := by
  have colon : ":record:" = ":record" ++ ":" := String.toList_inj.mp (by simp)
  show "dlq:" ++ taskId ++ ":record:" ++ toString number =
    "dlq:" ++ (taskId ++ ":record") ++ ":" ++ toString number
  rw [colon, String.append_assoc, String.append_assoc, String.append_assoc, String.append_assoc,
    String.append_assoc, String.append_assoc]

/-! ## What the observations before an item say -/

namespace Builtins

variable (c : Builtins) (past : List (String × Item))

def attemptCount (taskId : String) : Nat :=
  past.countP fun x => c.eventKind x.2 = .messageReceived && x.1 = taskId

def deadLetterCount (taskId : String) : Nat :=
  past.countP fun x => c.eventKind x.2 = .deadLettered && x.1 = taskId

def stageCount (stage : String) : Nat :=
  past.countP fun x => c.eventKind x.2 = .workflowReceived && c.stageName x.2 = stage

/-- A publication or a reception of the message. -/
def mentioned (messageId : String) : Bool :=
  past.any fun x =>
    (c.eventKind x.2 = .workflowPublished || c.eventKind x.2 = .workflowReceived) &&
      c.messageId x.2 = messageId

def retrySeen (taskId : String) : Bool :=
  past.any fun x => c.eventKind x.2 = .retryScheduled && x.1 = taskId

/-- The retries of the task that come after an attempt of it. -/
def linkedRetries (taskId : String) : List (String × Item) → Nat
  | [] => 0
  | x :: past => linkedRetries taskId past +
      if c.eventKind x.2 = .retryScheduled ∧ x.1 = taskId ∧ c.attemptCount past taskId ≠ 0 then 1
      else 0

/-- A message that the item makes a node for. -/
def newMessage (item : Item) : Bool :=
  c.messageId item ≠ "" && !c.mentioned past (c.messageId item)

/-- A retry that has a node of its own. Without an attempt to link it to, the next one has the same
number. -/
def newRetry (taskId : String) : Bool :=
  c.linkedRetries taskId past ≠ 0 || !c.retrySeen past taskId

/-- The task, the kind and the time of a sample; `size` is the number of nodes so far. -/
def sampleText (size : Nat) (x : String × Item) : String :=
  x.1 ++ ":" ++ c.sampleKind x.2 ++ ":" ++
    (orNone (c.eventTimestamp x.2)).getD (toString size)

/-- The task and the stage of a reception. -/
def stageText (x : String × Item) : String := x.1 ++ ":" ++ c.stageName x.2

def messageKeys (item : Item) : List Key :=
  if c.newMessage past item then [.message (c.messageId item)] else []

def retryKeys (taskId : String) : List Key :=
  if c.newRetry past taskId then [.retry taskId (c.linkedRetries taskId past + 1)] else []

/-- The nodes that an item adds. -/
def newKeys (size : Nat) (x : String × Item) : List Key :=
  match c.eventKind x.2 with
  | .messageReceived => [.attempt x.1 (c.attemptCount past x.1 + 1)]
  | .resourceSampled => [.sample (c.sampleText size x)]
  | .workflowPublished => c.messageKeys past x.2
  | .workflowReceived =>
    c.messageKeys past x.2 ++ [.stage (c.stageText x) (c.stageCount past (c.stageName x.2) + 1)]
  | .retryScheduled => c.retryKeys past x.1
  | .deadLettered => [.dlq x.1 (c.deadLetterCount past x.1 + 1)]
  | .other => []

end Builtins

namespace Request

variable (r : Request) (c : Builtins)

def taskKey (taskId : String) : Key := if taskId = r.taskId then .task taskId else .child taskId

def taskKeys : List Key := (r.taskId :: r.relatedIds).map r.taskKey

/-- The nodes after the observations, in the order in which they come. -/
def keys : List (String × Item) → List Key
  | [] => r.taskKeys
  | x :: past => keys past ++ c.newKeys past (keys past).length x

/-- The texts of the samples. -/
def sampleTexts : List (String × Item) → List String
  | [] => []
  | x :: past => sampleTexts past ++
      if c.eventKind x.2 = .resourceSampled then [c.sampleText (r.keys c past).length x] else []

end Request

/-- The texts and the numbers of the receptions. -/
def Builtins.stageKeys (c : Builtins) : List (String × Item) → List (String × Nat)
  | [] => []
  | x :: past => stageKeys c past ++
      if c.eventKind x.2 = .workflowReceived then
        [(c.stageText x, c.stageCount past (c.stageName x.2) + 1)]
      else []

/-! ## What else the items say -/

namespace Builtins

variable (c : Builtins)

/-- The stage and the time of each reception. -/
def receptions : List (String × Item) → List (String × String)
  | [] => []
  | x :: past => receptions past ++
      if c.eventKind x.2 = .workflowReceived then [(c.stageName x.2, c.eventTimestamp x.2)] else []

/-- A reception, of the stage if one is given, up to the time. -/
def reached (past : List (String × Item)) (stage : Option String) (timestamp : String) : Bool :=
  (c.receptions past).any fun e => stage.all (e.1 = ·) && e.2 ≤ timestamp

/-- The item is drawn with an edge from the node of its task. -/
def needsTask (past : List (String × Item)) (x : String × Item) : Bool :=
  match c.eventKind x.2 with
  | .messageReceived => true
  | .workflowReceived => c.newMessage past x.2
  | _ => false

end Builtins

namespace Request

variable (r : Request) (c : Builtins)

/-- The task has a node. -/
def listed (taskId : String) : Bool := taskId ∈ r.taskId :: r.relatedIds

/-- A node or an edge has the time of the item. -/
def recordsTime (past : List (String × Item)) (x : String × Item) : Bool :=
  match c.eventKind x.2 with
  | .messageReceived | .resourceSampled | .workflowReceived | .deadLettered => true
  | .workflowPublished => c.messageId x.2 ≠ "" && (c.newMessage past x.2 ||
      if c.originStage x.2 = "" then r.listed x.1
      else c.reached past (some (c.originStage x.2)) (c.eventTimestamp x.2))
  | .retryScheduled => c.attemptCount past x.1 ≠ 0 || c.newRetry past x.1
  | .other => false

def recordedTimes : List (String × Item) → List String
  | [] => []
  | x :: past => recordedTimes past ++
      if r.recordsTime c past x then stamped (some (c.eventTimestamp x.2)) else []

end Request

/-! ## One item more -/

section Cons

variable (c : Builtins) (x : String × Item) (past : List (String × Item))

theorem attemptCount_cons (t : String) : c.attemptCount (x :: past) t =
    c.attemptCount past t + if c.eventKind x.2 = .messageReceived ∧ x.1 = t then 1 else 0 := by
  simp [Builtins.attemptCount, List.countP_cons]

theorem deadLetterCount_cons (t : String) : c.deadLetterCount (x :: past) t =
    c.deadLetterCount past t + if c.eventKind x.2 = .deadLettered ∧ x.1 = t then 1 else 0 := by
  simp [Builtins.deadLetterCount, List.countP_cons]

theorem stageCount_cons (stage : String) : c.stageCount (x :: past) stage =
    c.stageCount past stage +
      if c.eventKind x.2 = .workflowReceived ∧ c.stageName x.2 = stage then 1 else 0 := by
  simp [Builtins.stageCount, List.countP_cons]

theorem mentioned_cons (messageId : String) : c.mentioned (x :: past) messageId = true ↔
    ((c.eventKind x.2 = .workflowPublished ∨ c.eventKind x.2 = .workflowReceived) ∧
      c.messageId x.2 = messageId) ∨ c.mentioned past messageId = true := by
  simp [Builtins.mentioned]

theorem retrySeen_cons (t : String) : c.retrySeen (x :: past) t = true ↔
    (c.eventKind x.2 = .retryScheduled ∧ x.1 = t) ∨ c.retrySeen past t = true := by
  simp [Builtins.retrySeen]

variable {c x past} {t text : String} {n size : Nat}

theorem mem_messageKeys {item : Item} {k : Key} : k ∈ c.messageKeys past item ↔
    c.newMessage past item = true ∧ k = .message (c.messageId item) := by
  unfold Builtins.messageKeys
  split <;> simp_all

theorem mem_retryKeys {k : Key} : k ∈ c.retryKeys past t ↔
    c.newRetry past t = true ∧ k = .retry t (c.linkedRetries t past + 1) := by
  unfold Builtins.retryKeys
  split <;> simp_all

theorem attempt_mem_newKeys : .attempt t n ∈ c.newKeys past size x ↔
    c.eventKind x.2 = .messageReceived ∧ t = x.1 ∧ n = c.attemptCount past x.1 + 1 := by
  unfold Builtins.newKeys
  split <;> simp_all [mem_messageKeys, mem_retryKeys]

theorem sample_mem_newKeys : .sample text ∈ c.newKeys past size x ↔
    c.eventKind x.2 = .resourceSampled ∧ text = c.sampleText size x := by
  unfold Builtins.newKeys
  split <;> simp_all [mem_messageKeys, mem_retryKeys]

theorem message_mem_newKeys : .message text ∈ c.newKeys past size x ↔
    (c.eventKind x.2 = .workflowPublished ∨ c.eventKind x.2 = .workflowReceived) ∧
      c.newMessage past x.2 = true ∧ text = c.messageId x.2 := by
  unfold Builtins.newKeys
  split <;> simp_all [mem_messageKeys, mem_retryKeys]

theorem stage_mem_newKeys : .stage text n ∈ c.newKeys past size x ↔
    c.eventKind x.2 = .workflowReceived ∧ text = c.stageText x ∧
      n = c.stageCount past (c.stageName x.2) + 1 := by
  unfold Builtins.newKeys
  split <;> simp_all [mem_messageKeys, mem_retryKeys]

theorem retry_mem_newKeys : .retry t n ∈ c.newKeys past size x ↔
    c.eventKind x.2 = .retryScheduled ∧ c.newRetry past x.1 = true ∧ t = x.1 ∧
      n = c.linkedRetries x.1 past + 1 := by
  unfold Builtins.newKeys
  split <;> simp_all [mem_messageKeys, mem_retryKeys]

theorem dlq_mem_newKeys : .dlq t n ∈ c.newKeys past size x ↔
    c.eventKind x.2 = .deadLettered ∧ t = x.1 ∧ n = c.deadLetterCount past x.1 + 1 := by
  unfold Builtins.newKeys
  split <;> simp_all [mem_messageKeys, mem_retryKeys]

end Cons

theorem countP_receptions (c : Builtins) (past : List (String × Item)) (stage : String) :
    (c.receptions past).countP (·.1 = stage) = c.stageCount past stage := by
  induction past with
  | nil => rfl
  | cons x past ih =>
    rw [Builtins.receptions, List.countP_append, ih, stageCount_cons]
    by_cases kind : c.eventKind x.2 = .workflowReceived
    · simp [kind, List.countP_singleton]
    · simp [kind]

/-! ## Which keys there are -/

section Members

variable {r : Request} {c : Builtins} {past : List (String × Item)} {t text : String} {n : Nat}

theorem notMem_taskKeys {k : Key} (h : k.isTask = false) : k ∉ r.taskKeys := by
  intro mem
  obtain ⟨t, -, rfl⟩ := List.mem_map.mp mem
  unfold Request.taskKey at h
  split at h <;> cases h

theorem attempt_mem_keys :
    .attempt t n ∈ r.keys c past ↔ 1 ≤ n ∧ n ≤ c.attemptCount past t := by
  induction past with
  | nil =>
    have absent : Key.attempt t n ∉ r.taskKeys := notMem_taskKeys rfl
    simp only [Request.keys, absent, false_iff, Builtins.attemptCount, List.countP_nil]
    omega
  | cons x past ih =>
    rw [Request.keys, List.mem_append, ih, attempt_mem_newKeys, attemptCount_cons]
    split
    · rename_i here
      obtain ⟨kind, rfl⟩ := here
      simp only [kind, true_and]
      omega
    · rename_i elsewhere
      constructor
      · rintro (old | ⟨kind, rfl, -⟩)
        · exact old
        · exact absurd ⟨kind, rfl⟩ elsewhere
      · exact Or.inl

theorem dlq_mem_keys :
    .dlq t n ∈ r.keys c past ↔ 1 ≤ n ∧ n ≤ c.deadLetterCount past t := by
  induction past with
  | nil =>
    have absent : Key.dlq t n ∉ r.taskKeys := notMem_taskKeys rfl
    simp only [Request.keys, absent, false_iff, Builtins.deadLetterCount, List.countP_nil]
    omega
  | cons x past ih =>
    rw [Request.keys, List.mem_append, ih, dlq_mem_newKeys, deadLetterCount_cons]
    split
    · rename_i here
      obtain ⟨kind, rfl⟩ := here
      simp only [kind, true_and]
      omega
    · rename_i elsewhere
      constructor
      · rintro (old | ⟨kind, rfl, -⟩)
        · exact old
        · exact absurd ⟨kind, rfl⟩ elsewhere
      · exact Or.inl

theorem message_mem_keys (named : text ≠ "") :
    .message text ∈ r.keys c past ↔ c.mentioned past text = true := by
  induction past with
  | nil =>
    have absent : Key.message text ∉ r.taskKeys := notMem_taskKeys rfl
    simp [Request.keys, absent, Builtins.mentioned]
  | cons x past ih =>
    rw [Request.keys, List.mem_append, ih, message_mem_newKeys, mentioned_cons]
    constructor
    · rintro (old | ⟨kind, -, rfl⟩)
      · exact Or.inr old
      · exact Or.inl ⟨kind, rfl⟩
    · rintro (⟨kind, rfl⟩ | old)
      · by_cases old : c.mentioned past (c.messageId x.2) = true
        · exact Or.inl old
        · exact Or.inr ⟨kind, by simp [Builtins.newMessage, named, old], rfl⟩
      · exact Or.inl old

theorem sample_mem_keys :
    .sample text ∈ r.keys c past ↔ text ∈ r.sampleTexts c past := by
  induction past with
  | nil =>
    have absent : Key.sample text ∉ r.taskKeys := notMem_taskKeys rfl
    simp [Request.keys, absent, Request.sampleTexts]
  | cons x past ih =>
    rw [Request.keys, List.mem_append, ih, sample_mem_newKeys, Request.sampleTexts,
      List.mem_append]
    split <;> simp_all

theorem stage_mem_keys :
    .stage text n ∈ r.keys c past ↔ (text, n) ∈ c.stageKeys past := by
  induction past with
  | nil =>
    have absent : Key.stage text n ∉ r.taskKeys := notMem_taskKeys rfl
    simp [Request.keys, absent, Builtins.stageKeys]
  | cons x past ih =>
    rw [Request.keys, List.mem_append, ih, stage_mem_newKeys, Builtins.stageKeys,
      List.mem_append]
    split <;> simp_all

theorem attemptCount_of_linkedRetries (linked : c.linkedRetries t past ≠ 0) :
    c.attemptCount past t ≠ 0 := by
  induction past with
  | nil => simp [Builtins.linkedRetries] at linked
  | cons x past ih =>
    rw [attemptCount_cons]
    rw [Builtins.linkedRetries] at linked
    split at linked
    · rename_i here
      have := here.2.2
      omega
    · have := ih (by omega)
      omega

/-- The number that the next retry of the task has is taken when no retry is linked yet and one
has been seen. -/
theorem retry_mem_keys :
    .retry t n ∈ r.keys c past ↔
      1 ≤ n ∧ (n ≤ c.linkedRetries t past ∨ n = 1 ∧ c.retrySeen past t = true) := by
  induction past with
  | nil =>
    have absent : Key.retry t n ∉ r.taskKeys := notMem_taskKeys rfl
    simp only [Request.keys, absent, false_iff, Builtins.linkedRetries, Builtins.retrySeen,
      List.any_nil, Bool.false_eq_true, and_false, or_false]
    omega
  | cons x past ih =>
    have linked : c.attemptCount past t ≠ 0 ∨ c.linkedRetries t past = 0 :=
      or_iff_not_imp_right.mpr attemptCount_of_linkedRetries
    rw [Request.keys, List.mem_append, ih, retry_mem_newKeys, Builtins.linkedRetries,
      retrySeen_cons]
    by_cases here : c.eventKind x.2 = .retryScheduled ∧ x.1 = t
    · obtain ⟨kind, rfl⟩ := here
      by_cases seen : c.retrySeen past x.1 = true <;>
        by_cases some_attempt : c.attemptCount past x.1 = 0 <;>
        simp only [Builtins.newRetry, kind, seen, some_attempt, true_and, ne_eq, Bool.or_eq_true,
          decide_eq_true_eq, not_true_eq_false, not_false_eq_true, if_true, if_false,
          Bool.not_true, Bool.not_false, Bool.false_eq_true, or_false, or_true, and_true,
          and_false, false_or] at linked ⊢ <;>
        omega
    · have unlinked : ¬(c.eventKind x.2 = .retryScheduled ∧ x.1 = t ∧
          c.attemptCount past t ≠ 0) := fun h => here ⟨h.1, h.2.1⟩
      simp only [if_neg unlinked, here, false_or, Nat.add_zero]
      constructor
      · rintro (old | ⟨kind, -, rfl, -⟩)
        · exact old
        · exact absurd ⟨kind, rfl⟩ here
      · exact Or.inl

theorem retry_notMem_keys :
    .retry t (c.linkedRetries t past + 1) ∉ r.keys c past ↔ c.newRetry past t = true := by
  rw [retry_mem_keys, Builtins.newRetry]
  by_cases seen : c.retrySeen past t = true
  · simp only [seen, and_true, Bool.not_true, Bool.or_false, ne_eq, decide_eq_true_eq]
    omega
  · simp only [Bool.not_eq_true] at seen
    simp only [seen, Bool.false_eq_true, and_false, or_false, Bool.not_false, Bool.or_true,
      iff_true]
    omega

theorem message_notMem_keys {item : Item} (named : c.messageId item ≠ "") :
    .message (c.messageId item) ∉ r.keys c past ↔ c.newMessage past item = true := by
  rw [message_mem_keys named]
  simp [Builtins.newMessage, named]

theorem taskKeys_nodup : r.taskKeys.Nodup := by
  have related : r.relatedIds.Nodup ∧ ∀ t ∈ r.relatedIds, t ≠ r.taskId := by
    unfold Request.relatedIds sortedBy
    refine ⟨(List.perm_insertionSort _ _).nodup_iff.mpr (List.nodup_dedup _), fun t ht => ?_⟩
    simp only [List.mem_insertionSort, List.mem_dedup, List.mem_filter, Bool.and_eq_true,
      decide_eq_true_eq] at ht
    exact ht.2.2
  have distinct : (r.taskId :: r.relatedIds).Nodup :=
    List.nodup_cons.mpr ⟨fun mem => related.2 _ mem rfl, related.1⟩
  refine distinct.map fun t t' same => ?_
  unfold Request.taskKey at same
  split at same <;> split at same <;> simp_all

/-- The texts of a sample and of a reception are not those of an earlier one. -/
structure Fresh (r : Request) (c : Builtins) (past : List (String × Item)) (x : String × Item) :
    Prop where
  sample : c.eventKind x.2 = .resourceSampled →
    c.sampleText (r.keys c past).length x ∉ r.sampleTexts c past
  stage : c.eventKind x.2 = .workflowReceived →
    (c.stageText x, c.stageCount past (c.stageName x.2) + 1) ∉ c.stageKeys past

end Members

end Relayna.Observability.Execution
