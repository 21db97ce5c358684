import Relayna.Foundation.Failing
import Relayna.Observability.GraphLedger

/-!
# The loop over the observations

After the observations in `past` the graph is that of `ledger past`, as long as every item found
the node of its task and no sample and no reception had the text of an earlier one. Where an item
has such a text, its node is merged into the earlier one and two items have one node.
-/
namespace Relayna.Observability.Execution

open Python Contracts Names

/-- What the observations amount to. -/
def Request.ledger (r : Request) (c : Builtins) (past : List (String × Item)) : Ledger where
  keys := r.keys c past
  attempts := c.attemptCount past
  stageKeys := c.stageKeys past
  receptions := c.receptions past
  messages m := m ≠ "" && c.mentioned past m
  retries t := c.linkedRetries t past
  deadLetters := c.deadLetterCount past
  times := {s | s ∈ r.recordedTimes c past}

/-- What one item adds to the ledger. -/
theorem Request.ledger_cons (r : Request) (c : Builtins) (past : List (String × Item))
    (x : String × Item) : r.ledger c (x :: past) =
      { keys := r.keys c past ++ c.newKeys past (r.keys c past).length x
        attempts := fun t => c.attemptCount past t +
          if c.eventKind x.2 = .messageReceived ∧ x.1 = t then 1 else 0
        stageKeys := c.stageKeys past ++
          if c.eventKind x.2 = .workflowReceived then
            [(c.stageText x, c.stageCount past (c.stageName x.2) + 1)]
          else []
        receptions := c.receptions past ++
          if c.eventKind x.2 = .workflowReceived then
            [(c.stageName x.2, c.eventTimestamp x.2)]
          else []
        messages := fun m => (m ≠ "" && c.mentioned past m) ||
          ((c.eventKind x.2 = .workflowPublished || c.eventKind x.2 = .workflowReceived) &&
            m ≠ "" && c.messageId x.2 = m)
        retries := fun t => c.linkedRetries t past +
          if c.eventKind x.2 = .retryScheduled ∧ x.1 = t ∧ c.attemptCount past t ≠ 0 then 1 else 0
        deadLetters := fun t => c.deadLetterCount past t +
          if c.eventKind x.2 = .deadLettered ∧ x.1 = t then 1 else 0
        times := {s | s ∈ r.recordedTimes c past} ∪
          {s | r.recordsTime c past x = true ∧ s ∈ stamped (some (c.eventTimestamp x.2))} } := by
  ext : 1
  case keys => rfl
  case attempts => exact funext (attemptCount_cons c x past)
  case stageKeys => rfl
  case receptions => rfl
  case messages =>
    funext m
    simp only [Request.ledger, Builtins.mentioned, List.any_cons]
    cases decide (m ≠ "") <;> simp [Bool.or_comm]
  case retries => rfl
  case deadLetters => exact funext (deadLetterCount_cons c x past)
  case times =>
    ext s
    simp only [Request.ledger, Request.recordedTimes, Set.mem_ofPred_eq, List.mem_append,
      Set.mem_union]
    split <;> simp_all

theorem update_succ (f : String → Nat) (t : String) :
    Function.update f t (f t + 1) = fun t' => f t' + if t = t' then 1 else 0 := by
  funext t'
  by_cases same : t = t'
  · simp [same]
  · simp [same, Function.update_of_ne (Ne.symm same)]

theorem update_true {m : String} (named : m ≠ "") (f : String → Bool) :
    Function.update f m true = fun m' => f m' || (decide (m' ≠ "") && decide (m = m')) := by
  funext m'
  by_cases same : m = m'
  · subst same
    simp [named]
  · simp [same, Function.update_of_ne (Ne.symm same)]

namespace Described

variable {r : Request} {c : Builtins} {past : List (String × Item)} {b : Build} {t : String}
  {item : Item} {L : Ledger}

theorem of_eq {L' : Ledger} (h : Described r L b) (same : L = L') : Described r L' b := same ▸ h

theorem taskNode (h : Described r L b) (listed : r.listed t = true) :
    b.taskNode t = .ok (r.taskKey t).render ∧ (r.taskKey t).render ∈ b.ids := by
  refine ⟨?_, h.mem_ids.mpr (h.taskKeys t listed)⟩
  simp [Build.taskNode, h.tasks, listed]

theorem taskNode_error (h : Described r L b) (unlisted : r.listed t = false) :
    b.taskNode t = .error (.keyError t) := by
  simp [Build.taskNode, h.tasks, unlisted]

theorem observeAttempt (h : Described r (r.ledger c past) b)
    (kind : c.eventKind item = .messageReceived) (listed : r.listed t = true) :
    ∃ b', c.observeAttempt b t item = .ok b' ∧ Described r (r.ledger c ((t, item) :: past)) b' := by
  have number : (b.attemptsByTask t).length = c.attemptCount past t := by
    simp [h.attempts, Request.ledger]
  have new : Key.attempt t (c.attemptCount past t + 1) ∉ r.keys c past := by
    rw [attempt_mem_keys]
    omega
  unfold Builtins.observeAttempt
  rw [number]
  have named : (c.attemptNode t (c.attemptCount past t + 1) item).id =
      (Key.attempt t (c.attemptCount past t + 1)).render := rfl
  have fresh : (c.attemptNode t (c.attemptCount past t + 1) item).id ∉ b.ids := by
    rwa [named, h.mem_ids]
  have added := h.addItem named new rfl rfl
  have key : Key.attempt t (c.attemptCount past t + 1) ∈ ((r.ledger c past).addNode
      (.attempt t (c.attemptCount past t + 1))
      (c.attemptNode t (c.attemptCount past t + 1) item)).keys := by
    simp [Ledger.addNode]
  have noted := added.noteAttempt key named (Build.node?_addNode_new fresh) fun s hs => Or.inr hs
  obtain ⟨found, present⟩ := noted.taskNode listed
  refine ⟨_, congrArg (Except.map _) found, ?_⟩
  refine (noted.addEdge present (noted.mem_ids.mpr key)).of_eq ?_
  rw [Request.ledger_cons]
  ext <;> simp [Ledger.addEdge, Ledger.noteAttempt, Ledger.addNode, Request.ledger,
    Builtins.newKeys, kind, Request.recordsTime, Builtins.retried, Builtins.attemptNode,
    update_succ]

theorem size (h : Described r (r.ledger c past) b) : b.nodes.length = (r.keys c past).length := by
  simpa [Build.ids, Request.ledger] using congrArg List.length h.ids

theorem sampleNode_id (size : Nat) (x : String × Item) :
    (c.sampleNode x.1 size x.2).id = (Key.sample (c.sampleText size x)).render := by
  show "resource-sample:" ++ x.1 ++ ":" ++ _ ++ ":" ++ _ =
    "resource-sample:" ++ (x.1 ++ ":" ++ _ ++ ":" ++ _)
  simp only [String.append_assoc]

theorem observeSample (h : Described r (r.ledger c past) b)
    (kind : c.eventKind item = .resourceSampled) (fresh : Fresh r c past (t, item)) :
    Described r (r.ledger c ((t, item) :: past)) (c.observeSample b t item) := by
  have new : Key.sample (c.sampleText (r.keys c past).length (t, item)) ∉ r.keys c past := by
    rw [sample_mem_keys]
    exact fresh.sample kind
  unfold Builtins.observeSample
  rw [h.size]
  refine (h.addItem (sampleNode_id _ (t, item)) new rfl rfl).of_eq ?_
  rw [Request.ledger_cons]
  ext <;> simp [Ledger.addNode, Request.ledger, Builtins.newKeys, kind, Request.recordsTime,
    Builtins.sampleNode]

theorem observeDeadLetter (h : Described r (r.ledger c past) b)
    (kind : c.eventKind item = .deadLettered) :
    Described r (r.ledger c ((t, item) :: past)) (c.observeDeadLetter b t item) := by
  have number : b.nodes.countP (fun n => n.kind = .dlqRecord && n.taskId = some t) =
      c.deadLetterCount past t := h.deadLetters t
  have new : Key.dlq t (c.deadLetterCount past t + 1) ∉ r.keys c past := by
    rw [dlq_mem_keys]
    omega
  unfold Builtins.observeDeadLetter
  rw [number]
  have named : (c.deadLetterNode t (c.deadLetterCount past t + 1) item).id =
      (Key.dlq t (c.deadLetterCount past t + 1)).render := rfl
  have added := h.addItem named new rfl rfl
  have key : Key.dlq t (c.deadLetterCount past t + 1) ∈ ((r.ledger c past).addNode
      (.dlq t (c.deadLetterCount past t + 1))
      (c.deadLetterNode t (c.deadLetterCount past t + 1) item)).keys := by
    simp [Ledger.addNode]
  dsimp only
  rcases added.latestAttempt_cases
    (c.deadLetterNode t (c.deadLetterCount past t + 1) item).timestamp with
    ⟨-, attempt, found, present⟩ | ⟨-, found⟩
  all_goals
    rw [found, Request.ledger_cons]
  · refine (added.addEdge present (added.mem_ids.mpr key)).of_eq ?_
    ext <;> simp [Ledger.addEdge, Ledger.addNode, Request.ledger, Builtins.newKeys, kind,
      Request.recordsTime, Builtins.retried, Builtins.deadLetterNode]
  · refine added.of_eq ?_
    ext <;> simp [Ledger.addNode, Request.ledger, Builtins.newKeys, kind, Request.recordsTime,
      Builtins.deadLetterNode]

/-- The node of a retry, with a key of its own or merged. -/
theorem addRetry (h : Described r (r.ledger c past) b) {n : ExecutionGraphNode}
    (named : n.id = (Key.retry t (c.linkedRetries t past + 1)).render)
    (owned : n.taskId.isSome = true) :
    ∃ L, Described r L (b.addNode n) ∧ n.id ∈ (b.addNode n).ids ∧
      L = if c.newRetry past t then
        (r.ledger c past).addNode (.retry t (c.linkedRetries t past + 1)) n
      else r.ledger c past := by
  by_cases new : c.newRetry past t = true
  · have added := h.addNode named (retry_notMem_keys.mpr new) owned rfl
    refine ⟨_, added, ?_, (if_pos new).symm⟩
    rw [named, added.mem_ids]
    simp [Ledger.addNode]
  · have old : Key.retry t (c.linkedRetries t past + 1) ∈ r.keys c past := by
      rwa [← retry_notMem_keys, not_not] at new
    have merged := h.merge named old (fun _ _ => Key.noConfusion) fun _ _ => Key.noConfusion
    refine ⟨_, merged, ?_, (if_neg new).symm⟩
    rw [named, merged.mem_ids]
    exact old

theorem observeRetry (h : Described r (r.ledger c past) b)
    (kind : c.eventKind item = .retryScheduled) :
    Described r (r.ledger c ((t, item) :: past)) (c.observeRetry b t item) := by
  have number : b.edges.countP (Builtins.retried t) = c.linkedRetries t past := h.retries t
  unfold Builtins.observeRetry
  rw [number]
  have named : (c.retryNode t (c.linkedRetries t past + 1) item).id =
      (Key.retry t (c.linkedRetries t past + 1)).render := rfl
  obtain ⟨L, added, present, same⟩ := h.addRetry named rfl
  have attempts : L.attempts = c.attemptCount past := by
    rw [same]
    split <;> rfl
  dsimp only
  rcases added.latestAttempt_cases (t := t)
    (c.retryNode t (c.linkedRetries t past + 1) item).timestamp with
    ⟨some_attempt, attempt, found, source⟩ | ⟨no_attempt, found⟩
  all_goals
    rw [found, Request.ledger_cons]
  · rw [attempts] at some_attempt
    refine ((added.addEdge source present).noteLink present).of_eq ?_
    -- The edge counts for the task of the retry, which has an attempt.
    have counted (t' : String) :
        (if AnnotationValue.isText t' (.value (.str t)) = true then 1 else 0) =
          if t = t' ∧ c.attemptCount past t' ≠ 0 then 1 else 0 := by
      by_cases mine : t = t'
      · subst mine
        simp [AnnotationValue.isText, some_attempt]
      · simp [AnnotationValue.isText, mine]
    subst same
    cases new : c.newRetry past t <;> ext <;>
      simp [Ledger.addEdge, Ledger.addNode, Request.ledger, Builtins.newKeys, Builtins.retryKeys,
        Request.recordsTime, Builtins.retried, Builtins.retryNode, kind, new, some_attempt, counted]
  · rw [attempts] at no_attempt
    refine (added.noteLink present).of_eq ?_
    have uncounted (t' : String) : t = t' → c.attemptCount past t' = 0 := by
      rintro rfl
      exact no_attempt
    subst same
    cases new : c.newRetry past t <;> ext <;>
      simp [Ledger.addNode, Request.ledger, Builtins.newKeys, Builtins.retryKeys,
        Request.recordsTime, Builtins.retryNode, kind, new, no_attempt]
    all_goals exact uncounted _

/-- The node of a message, with a key of its own or merged. -/
theorem addMessage (h : Described r (r.ledger c past) b) (named : c.messageId item ≠ "") :
    ∃ L, Described r L (c.addMessage b t item) ∧
      messageNodeId (c.messageId item) ∈ (c.addMessage b t item).ids ∧
      L = (if c.newMessage past item then
        (r.ledger c past).addNode (.message (c.messageId item)) (c.messageNode t item)
      else r.ledger c past).noteMessage (c.messageId item) := by
  have id : (c.messageNode t item).id = (Key.message (c.messageId item)).render := rfl
  by_cases new : c.newMessage past item = true
  · have added := h.addNode id ((message_notMem_keys named).mpr new) rfl rfl
    have key : Key.message (c.messageId item) ∈ ((r.ledger c past).addNode
        (.message (c.messageId item)) (c.messageNode t item)).keys := by
      simp [Ledger.addNode]
    refine ⟨_, added.noteMessage key, (added.noteMessage key).mem_ids.mpr key, ?_⟩
    rw [if_pos new]
  · have old : Key.message (c.messageId item) ∈ r.keys c past := by
      rwa [← message_notMem_keys named, not_not] at new
    have merged := h.merge id old (fun _ _ => Key.noConfusion) fun _ _ => Key.noConfusion
    refine ⟨_, merged.noteMessage old, (merged.noteMessage old).mem_ids.mpr old, ?_⟩
    rw [if_neg new]

theorem observePublished (h : Described r (r.ledger c past) b)
    (kind : c.eventKind item = .workflowPublished) :
    Described r (r.ledger c ((t, item) :: past)) (c.observePublished b t item) := by
  unfold Builtins.observePublished
  by_cases named : c.messageId item = ""
  · rw [if_pos named]
    refine h.of_eq ?_
    rw [Request.ledger_cons]
    ext <;> simp [Request.ledger, Builtins.newKeys, Builtins.messageKeys, Builtins.newMessage,
      Request.recordsTime, kind, named]
  · rw [if_neg named]
    obtain ⟨L, added, target, same⟩ := h.addMessage (t := t) named
    have receptions : L.receptions = c.receptions past := by
      rw [same]
      split <;> rfl
    dsimp only
    by_cases origin : c.originStage item = ""
    · rw [if_neg (by simp [origin])]
      cases listed : r.listed t with
      | true =>
        obtain ⟨-, source⟩ := added.taskNode listed
        rw [added.tasks, listed, if_pos rfl]
        refine (added.addEdge source target).of_eq ?_
        rw [same, Request.ledger_cons]
        cases new : c.newMessage past item <;> ext <;>
          simp [Ledger.addEdge, Ledger.addNode, Ledger.noteMessage, Request.ledger,
            Builtins.newKeys, Builtins.messageKeys, Builtins.messageNode, Builtins.retried,
            Request.recordsTime, kind, new, named, origin, listed, update_true]
      | false =>
        rw [added.tasks, listed]
        refine added.of_eq ?_
        rw [same, Request.ledger_cons]
        cases new : c.newMessage past item <;> ext <;>
          simp [Ledger.addNode, Ledger.noteMessage, Request.ledger,
            Builtins.newKeys, Builtins.messageKeys, Builtins.messageNode,
            Request.recordsTime, kind, new, named, origin, listed, update_true]
    · rw [if_pos origin]
      rcases added.latestStageAttempt_cases (some (c.originStage item)) (c.eventTimestamp item)
        with ⟨reached, attempt, found, source⟩ | ⟨reached, found⟩
      all_goals
        rw [receptions] at reached
        change c.reached past (some (c.originStage item)) (c.eventTimestamp item) = _ at reached
        rw [found]
      · refine (added.addEdge source target).of_eq ?_
        rw [same, Request.ledger_cons]
        cases new : c.newMessage past item <;> ext <;>
          simp [Ledger.addEdge, Ledger.addNode, Ledger.noteMessage, Request.ledger,
            Builtins.newKeys, Builtins.messageKeys, Builtins.messageNode, Builtins.retried,
            Request.recordsTime, kind, new, named, origin, reached, update_true]
      · refine added.of_eq ?_
        rw [same, Request.ledger_cons]
        cases new : c.newMessage past item <;> ext <;>
          simp [Ledger.addNode, Ledger.noteMessage, Request.ledger,
            Builtins.newKeys, Builtins.messageKeys, Builtins.messageNode,
            Request.recordsTime, kind, new, named, origin, reached, update_true]

/-- The ledger between the node of a message that is received and that of its reception. -/
def messageLedger (r : Request) (c : Builtins) (past : List (String × Item)) (item : Item) :
    Ledger :=
  { r.ledger c past with
    keys := r.keys c past ++ c.messageKeys past item
    messages := fun m => (m ≠ "" && c.mentioned past m) || (m ≠ "" && c.messageId item = m)
    times := {s | s ∈ r.recordedTimes c past} ∪
      {s | c.newMessage past item = true ∧ s ∈ stamped (some (c.eventTimestamp item))} }

/-- The node of the message of a reception. -/
theorem receivedMessage (h : Described r (r.ledger c past) b)
    (listed : c.newMessage past item = true → r.listed t = true) :
    ∃ b', c.receivedMessage b t item =
        .ok (b', (orNone (c.messageId item)).map messageNodeId) ∧
      (∀ m, orNone (c.messageId item) = some m → messageNodeId m ∈ b'.ids) ∧
      Described r (messageLedger r c past item) b' := by
  unfold Builtins.receivedMessage orNone
  by_cases named : c.messageId item = ""
  · rw [if_pos named, if_pos named]
    refine ⟨b, rfl, nofun, h.of_eq ?_⟩
    ext <;> simp [messageLedger, Request.ledger, Builtins.messageKeys, Builtins.newMessage, named]
  · rw [if_neg named, if_neg named, h.messages _ named]
    by_cases old : c.mentioned past (c.messageId item) = true
    · have noted : (r.ledger c past).messages (c.messageId item) = true := by
        simp [Request.ledger, named, old]
      rw [if_pos noted]
      refine ⟨b, rfl, ?_, h.of_eq ?_⟩
      · intro m hm
        obtain rfl := Option.some.inj hm
        exact h.mem_ids.mpr (h.messageKeys _ named noted)
      · ext <;> simp [messageLedger, Request.ledger, Builtins.messageKeys, Builtins.newMessage, old]
        rintro unnamed rfl
        exact ⟨unnamed, old⟩
    · have new : c.newMessage past item = true := by simp [Builtins.newMessage, named, old]
      obtain ⟨L, added, target, same⟩ := h.addMessage (t := t) named
      obtain ⟨found, source⟩ := added.taskNode (listed new)
      have unseen : ¬(r.ledger c past).messages (c.messageId item) = true := by
        simp [Request.ledger, old]
      rw [if_neg unseen]
      refine ⟨_, congrArg (Except.map _) found, ?_, (added.addEdge source target).of_eq ?_⟩
      · intro m hm
        obtain rfl := Option.some.inj hm
        exact target
      · rw [same]
        ext <;> simp [messageLedger, Ledger.addEdge, Ledger.addNode, Ledger.noteMessage,
          Request.ledger, Builtins.messageKeys, Builtins.messageNode, Builtins.retried, new,
          named, update_true]

theorem stageAttemptNode_id (number : Nat) (x : String × Item) :
    (c.stageAttemptNode x.1 number x.2).id = (Key.stage (c.stageText x) number).render := by
  show "stage-attempt:" ++ x.1 ++ ":" ++ _ ++ ":" ++ _ =
    "stage-attempt:" ++ (x.1 ++ ":" ++ _) ++ ":" ++ _
  simp only [String.append_assoc]

theorem observeReceived (h : Described r (r.ledger c past) b)
    (kind : c.eventKind item = .workflowReceived)
    (listed : c.newMessage past item = true → r.listed t = true)
    (fresh : Fresh r c past (t, item)) :
    ∃ b', c.observeReceived b t item = .ok b' ∧
      Described r (r.ledger c ((t, item) :: past)) b' := by
  obtain ⟨b₁, received, message, h₁⟩ := h.receivedMessage listed
  have number : b₁.stages.countP (·.hasStage (c.stageName item)) =
      c.stageCount past (c.stageName item) := by
    rw [h₁.countP_hasStage]
    exact countP_receptions c past _
  generalize hn : c.stageCount past (c.stageName item) + 1 = n at *
  have new : Key.stage (c.stageText (t, item)) n ∉ (messageLedger r c past item).keys := by
    show _ ∉ r.keys c past ++ c.messageKeys past item
    rw [List.mem_append, stage_mem_keys, mem_messageKeys]
    rintro (old | ⟨-, same⟩)
    · exact fresh.stage kind (hn ▸ old)
    · cases same
  have named : (c.stageAttemptNode t n item).id = (Key.stage (c.stageText (t, item)) n).render :=
    stageAttemptNode_id n (t, item)
  have absent : (c.stageAttemptNode t n item).id ∉ b₁.ids := by
    rwa [named, h₁.mem_ids]
  have added := h₁.addItem named new rfl rfl
  have key : Key.stage (c.stageText (t, item)) n ∈
      ((messageLedger r c past item).addNode (.stage (c.stageText (t, item)) n)
        (c.stageAttemptNode t n item)).keys := by
    simp [Ledger.addNode]
  have view : (c.stageAttemptNode t n item).stageView =
      (some (c.stageName item), some (c.eventTimestamp item)) := rfl
  have noted := added.noteStage key named (Build.node?_addNode_new absent) view
  unfold Builtins.observeReceived
  rw [received, Except.map]
  refine ⟨_, rfl, ?_⟩
  dsimp only
  rw [number, hn]
  cases hm : orNone (c.messageId item) with
  | none =>
    refine noted.of_eq ?_
    rw [Request.ledger_cons]
    ext <;> simp [messageLedger, Ledger.noteStage, Ledger.addNode, Request.ledger,
      Builtins.newKeys, kind, Request.recordsTime, Builtins.stageAttemptNode, hn]
    tauto
  | some m =>
    have source : messageNodeId m ∈ Build.ids
        { b₁.addItem (c.stageAttemptNode t n item) with
          stageAttempts := (b₁.addItem (c.stageAttemptNode t n item)).stageAttempts ++
            [(c.stageAttemptNode t n item).id] } := by
      refine (noted.mem_ids (k := .message m)).mpr (List.mem_append_left _ ?_)
      exact h₁.mem_ids.mp (message m hm)
    refine (noted.addEdge source (named ▸ noted.mem_ids.mpr key)).of_eq ?_
    rw [Request.ledger_cons]
    ext <;> simp [messageLedger, Ledger.addEdge, Ledger.noteStage, Ledger.addNode, Request.ledger,
      Builtins.newKeys, kind, Request.recordsTime, Builtins.stageAttemptNode, Builtins.retried, hn]
    tauto

end Described

/-! ## The nodes that items were given -/

section Items

variable {c : Builtins} {b b' : Build} {t : String} {item : Item} {n : ExecutionGraphNode}

@[simp] theorem Build.itemNodes_addNode : (b.addNode n).itemNodes = b.itemNodes := by
  unfold Build.addNode
  split <;> rfl

theorem Build.taskNodeIds_addNode : (b.addNode n).taskNodeIds = b.taskNodeIds := by
  unfold Build.addNode
  split <;> rfl

@[simp] theorem Build.itemNodes_addEdge {e : ExecutionGraphEdge} :
    (b.addEdge e).itemNodes = b.itemNodes := rfl

@[simp] theorem Build.itemNodes_addItem : (b.addItem n).itemNodes = b.itemNodes ++ [n.id] := rfl

theorem itemNodes_receivedMessage {m : Option String}
    (h : c.receivedMessage b t item = .ok (b', m)) : b'.itemNodes = b.itemNodes := by
  unfold Builtins.receivedMessage at h
  split at h
  · obtain ⟨rfl, -⟩ := Prod.mk.inj (Except.ok.inj h)
    rfl
  · split at h
    · obtain ⟨rfl, -⟩ := Prod.mk.inj (Except.ok.inj h)
      rfl
    · obtain ⟨source, -, h⟩ := Failing.map_ok.mp h
      obtain ⟨rfl, -⟩ := Prod.mk.inj h
      simp [Builtins.addMessage]

theorem itemNodes_observeReceived {b₁ : Build} {m : Option String}
    (received : c.receivedMessage b t item = .ok (b₁, m))
    (h : c.observeReceived b t item = .ok b') :
    b'.itemNodes = b.itemNodes ++ [(c.stageAttemptNode t
      (b₁.stages.countP (·.hasStage (c.stageName item)) + 1) item).id] := by
  unfold Builtins.observeReceived at h
  rw [received] at h
  rw [← Except.ok.inj h, ← itemNodes_receivedMessage received]
  cases m <;> rfl

/-- What has been given to an item stays given. -/
theorem itemNodes_observe {x : String × Item} (h : c.observe b x = .ok b') :
    b.itemNodes <+: b'.itemNodes := by
  unfold Builtins.observe at h
  split at h
  · obtain ⟨source, -, rfl⟩ := Failing.map_ok.mp h
    exact List.prefix_append _ _
  · obtain rfl := Except.ok.inj h
    exact List.prefix_append _ _
  · obtain rfl := Except.ok.inj h
    unfold Builtins.observePublished
    split
    · exact List.prefix_rfl
    · dsimp only
      split <;> split <;> simp [Builtins.addMessage]
  · obtain ⟨p, received, -⟩ := Failing.map_ok.mp h
    rw [itemNodes_observeReceived received h]
    exact List.prefix_append _ _
  · obtain rfl := Except.ok.inj h
    unfold Builtins.observeRetry
    dsimp only
    split <;> simp
  · obtain rfl := Except.ok.inj h
    unfold Builtins.observeDeadLetter
    dsimp only
    split <;> simp
  · obtain rfl := Except.ok.inj h
    exact List.prefix_rfl

end Items

/-! ## The loop -/

section Loop

variable {r : Request} {c : Builtins} {past : List (String × Item)} {b b' : Build}
  {x : String × Item} {L : Ledger}

/-- The item finds the node of its task if it needs it, and has a node of its own if it is a sample
or a reception. -/
def Drawn (r : Request) (c : Builtins) (past : List (String × Item)) (x : String × Item) : Prop :=
  (c.needsTask past x = true → r.listed x.1 = true) ∧ Fresh r c past x

theorem Described.observe (h : Described r (r.ledger c past) b) (drawn : Drawn r c past x) :
    ∃ b', c.observe b x = .ok b' ∧ Described r (r.ledger c (x :: past)) b' := by
  obtain ⟨listed, fresh⟩ := drawn
  unfold Builtins.observe
  unfold Builtins.needsTask at listed
  split
  case h_1 kind => exact h.observeAttempt kind (listed (by rw [kind]))
  case h_2 kind => exact ⟨_, rfl, h.observeSample kind fresh⟩
  case h_3 kind => exact ⟨_, rfl, h.observePublished kind⟩
  case h_4 kind => exact h.observeReceived kind (fun new => listed (by rw [kind]; exact new)) fresh
  case h_5 kind => exact ⟨_, rfl, h.observeRetry kind⟩
  case h_6 kind => exact ⟨_, rfl, h.observeDeadLetter kind⟩
  case h_7 kind =>
    refine ⟨b, rfl, h.of_eq ?_⟩
    rw [Request.ledger_cons]
    ext <;> simp [Request.ledger, Builtins.newKeys, kind, Request.recordsTime]

/-- The node that an item is given is that of an earlier item. -/
theorem Described.given_twice (h : Described r L b) {k : Key} (old : k ∈ L.keys)
    (item : k.isItem = true) : ¬(b.itemNodes ++ [k.render]).Nodup := by
  intro nodup
  have before : k.render ∈ b.itemNodes := by
    rw [h.items]
    exact List.mem_map_of_mem (List.mem_filter.mpr ⟨old, item⟩)
  exact (List.nodup_append.mp nodup).2.2 _ before _ (List.mem_singleton_self _) rfl

/-- An item that needs the node of its task, and whose task has none, is not drawn. -/
theorem Described.observe_unlisted (h : Described r (r.ledger c past) b)
    (needed : c.needsTask past x = true) (unlisted : r.listed x.1 = false) :
    c.observe b x ≠ .ok b' := by
  intro done
  have missing {b₁ : Build} (same : b₁.taskNodeIds = b.taskNodeIds) {source : String} :
      b₁.taskNode x.1 ≠ .ok source := by
    simp [Build.taskNode, same, h.tasks, unlisted]
  unfold Builtins.needsTask at needed
  unfold Builtins.observe at done
  split at needed
  · rename_i kind
    rw [kind] at done
    obtain ⟨source, found, -⟩ := Failing.map_ok.mp done
    exact missing Build.taskNodeIds_addNode found
  · rename_i kind
    rw [kind] at done
    obtain ⟨⟨b₁, m⟩, received, -⟩ := Failing.map_ok.mp done
    simp only [Builtins.newMessage, ne_eq, decide_not, Bool.and_eq_true, Bool.not_eq_true',
      decide_eq_false_iff_not] at needed
    obtain ⟨named, unseen⟩ := needed
    have noted : (r.ledger c past).messages (c.messageId x.2) = false := by
      simp [Request.ledger, unseen]
    rw [Builtins.receivedMessage, if_neg named, h.messages _ named, noted] at received
    obtain ⟨source, found, -⟩ := Failing.map_ok.mp received
    exact missing Build.taskNodeIds_addNode found
  · cases needed

theorem Described.observe_spoils (h : Described r (r.ledger c past) b)
    (undrawn : ¬Drawn r c past x) (done : c.observe b x = .ok b') : ¬b'.itemNodes.Nodup := by
  by_cases listed : c.needsTask past x = true → r.listed x.1 = true
  · have stale : ¬Fresh r c past x := fun fresh => undrawn ⟨listed, fresh⟩
    unfold Builtins.observe at done
    unfold Builtins.needsTask at listed
    split at done
    case h_2 kind =>
      obtain rfl := Except.ok.inj done
      have old : Key.sample (c.sampleText (r.keys c past).length x) ∈ r.keys c past := by
        by_contra new
        rw [sample_mem_keys] at new
        exact stale ⟨fun _ => new, fun received => by rw [kind] at received; cases received⟩
      rw [Builtins.observeSample, Build.itemNodes_addItem, h.size, sampleNode_id]
      exact h.given_twice old rfl
    case h_4 kind =>
      obtain ⟨b₁, received, -, h₁⟩ := h.receivedMessage
        (fun new => listed (by rw [kind]; exact new))
      have old : Key.stage (c.stageText x) (c.stageCount past (c.stageName x.2) + 1) ∈
          r.keys c past := by
        by_contra new
        rw [stage_mem_keys] at new
        exact stale ⟨fun sampled => (by rw [kind] at sampled; cases sampled), fun _ => new⟩
      have number : b₁.stages.countP (·.hasStage (c.stageName x.2)) =
          c.stageCount past (c.stageName x.2) := by
        rw [h₁.countP_hasStage]
        exact countP_receptions c past _
      rw [itemNodes_observeReceived received done, number, stageAttemptNode_id]
      exact h.given_twice old rfl
    all_goals
      rename_i kind
      refine absurd ⟨fun sampled => ?_, fun received => ?_⟩ stale
      · rw [kind] at sampled
        cases sampled
      · rw [kind] at received
        cases received
  · rw [Classical.not_imp, Bool.not_eq_true] at listed
    exact absurd done (h.observe_unlisted listed.1 listed.2)

/-- The loop over the observations goes on as planned, or two items have one node. -/
theorem observe_planned (r : Request) (c : Builtins) :
    Failing.Planned c.observe (fun past b => Described r (r.ledger c past) b)
      (fun b => ¬b.itemNodes.Nodup) (Drawn r c) where
  round h drawn := h.observe drawn
  spoils h undrawn done := h.observe_spoils undrawn done
  stays twice done nodup := twice (nodup.sublist (itemNodes_observe done).sublist)

end Loop

end Relayna.Observability.Execution
