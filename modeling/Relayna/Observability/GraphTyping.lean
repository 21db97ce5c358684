import Relayna.Observability.GraphLoops

/-!
# What the nodes and the edges of a graph join

Every node has the id of a key and the kind that belongs to it, and every kind of edge joins nodes
of its own kinds. Items that share a node do not change this: `add_node` keeps the id, the kind and
the task of the node that is there.
-/
namespace Relayna.Observability.Execution

open Python Contracts

def NodeKind.isTask : NodeKind → Bool
  | .task | .aggregationChild => true
  | _ => false

namespace Key

def kind : Key → NodeKind
  | task _ => .task
  | child _ => .aggregationChild
  | attempt _ _ => .taskAttempt
  | sample _ => .resourceSample
  | message _ => .workflowMessage
  | stage _ _ => .stageAttempt
  | retry _ _ => .retry
  | dlq _ _ => .dlqRecord
  | status _ _ => .statusEvent

/-- The task that the key names; the other keys run it together with more text. -/
def owner : Key → Option String
  | task t | child t | attempt t _ | retry t _ | status t _ => some t
  | _ => none

end Key

/-- The kinds that an edge joins, but for the edges that end the retries. -/
def EdgeKind.joins : EdgeKind → NodeKind → NodeKind → Bool
  | .aggregatedInto, source, target => source.isTask && target.isTask
  | .receivedBy, source, target =>
    source.isTask && (target = .taskAttempt || target = .workflowMessage)
  | .stageTransitionedTo, source, target => source = .stageAttempt && target = .workflowMessage
  | .enteredStage, source, target => source = .workflowMessage && target = .stageAttempt
  | .retriedAs, source, target => source = .taskAttempt && target = .retry
  | .deadLetteredTo, source, target =>
    (source = .taskAttempt || source.isTask) && target = .dlqRecord
  | .publishedStatus, source, target =>
    (source = .taskAttempt || source = .stageAttempt || source.isTask) && target = .statusEvent
  | .manualRetryTo, source, target => source = .taskAttempt && target = .taskAttempt

/-- The nodes and the edges that a part of the loops may have drawn. -/
structure Scope where
  nodes : NodeKind → Bool
  edges : EdgeKind → NodeKind → NodeKind → Bool

namespace Scope

/-- The observations. -/
def observed : Scope where
  nodes kind := kind ≠ .statusEvent
  edges kind source target :=
    kind.joins source target && kind ≠ .publishedStatus && kind ≠ .manualRetryTo

/-- The observations and the statuses. -/
def published : Scope where
  nodes _ := true
  edges := EdgeKind.joins

/-- All, with the edges from a retry to the attempt that follows it. -/
def linked : Scope where
  nodes _ := true
  edges kind source target :=
    kind.joins source target || kind = .receivedBy && source = .retry && target = .taskAttempt

end Scope

/-- The key that a node stands for. -/
def ExecutionGraphNode.Stands (n : ExecutionGraphNode) (k : Key) : Prop :=
  n.id = k.render ∧ n.kind = k.kind ∧ ∀ t, k.owner = some t → n.taskId = some t

/-- The keys that an edge joins. -/
def ExecutionGraphEdge.Between (e : ExecutionGraphEdge) (scope : Scope) (k l : Key) : Prop :=
  e.source = k.render ∧ e.target = l.render ∧ scope.edges e.kind k.kind l.kind = true

structure Build.Typed (scope : Scope) (b : Build) : Prop where
  unique : b.ids.Nodup
  nodes : ∀ n ∈ b.nodes, scope.nodes n.kind = true ∧ ∃ k, n.Stands k
  edges : ∀ e ∈ b.edges, ∃ k l, e.Between scope k l
  tasks : ∀ t id, b.taskNodeIds.lookup t = some id → ∃ k : Key, k.kind.isTask = true ∧
    k.owner = some t ∧ id = k.render
  attempts : ∀ t, ∀ id ∈ b.attemptsByTask t, ∃ i, id = (Key.attempt t i).render
  stages : ∀ id ∈ b.stageAttempts, ∃ s i, id = (Key.stage s i).render
  messages : ∀ m id, b.workflowMessageNodes m = some id → ∃ m', id = (Key.message m').render
  links : ∀ l ∈ b.pendingRetryLinks, ∃ i, l.retryNodeId = (Key.retry l.taskId i).render

section Lookup

variable {scope : Scope} {b b' : Build} {n : ExecutionGraphNode}
  {e : ExecutionGraphEdge} {k l : Key} {t : String}

theorem Build.id_mem_of_filterMap {ids : List String} (hn : n ∈ ids.filterMap b.node?) :
    n.id ∈ ids := by
  obtain ⟨id, mem, found⟩ := List.mem_filterMap.mp hn
  have same : n.id = id := Keyed.key_of_get? found
  rwa [same]

namespace Build.Typed

theorem attempt (h : b.Typed scope) (hn : n ∈ b.attempts t) :
    ∃ i, n.id = (Key.attempt t i).render :=
  h.attempts t n.id (Build.id_mem_of_filterMap hn)

theorem stage (h : b.Typed scope) (hn : n ∈ b.stages) : ∃ s i, n.id = (Key.stage s i).render :=
  h.stages n.id (Build.id_mem_of_filterMap hn)

/-- The node with the id of a key stands for it. -/
theorem stands (h : b.Typed scope) (hn : n ∈ b.nodes) (named : n.id = k.render) : n.Stands k := by
  obtain ⟨-, k', stands⟩ := h.nodes n hn
  obtain rfl := Key.render_injective (named.symm.trans stands.1)
  exact stands

theorem mono {wider : Scope} (nodes : ∀ kind, scope.nodes kind = true → wider.nodes kind = true)
    (edges : ∀ kind k l, scope.edges kind k l = true → wider.edges kind k l = true)
    (h : b.Typed scope) : b.Typed wider where
  unique := h.unique
  nodes n hn := (h.nodes n hn).imp_left (nodes _)
  edges := by
    intro e he
    obtain ⟨k, l, source, target, joined⟩ := h.edges e he
    exact ⟨k, l, source, target, edges _ _ _ joined⟩
  tasks := h.tasks
  attempts := h.attempts
  stages := h.stages
  messages := h.messages
  links := h.links

theorem addEdge (h : b.Typed scope) (between : e.Between scope k l) :
    (b.addEdge e).Typed scope where
  unique := h.unique
  nodes := h.nodes
  edges := by
    intro e' he'
    rcases List.mem_append.mp he' with old | new
    · exact h.edges e' old
    · obtain rfl := List.mem_singleton.mp new
      exact ⟨k, l, between⟩
  tasks := h.tasks
  attempts := h.attempts
  stages := h.stages
  messages := h.messages
  links := h.links

theorem addNode (h : b.Typed scope) (stands : n.Stands k)
    (allowed : scope.nodes k.kind = true) : (b.addNode n).Typed scope := by
  by_cases old : n.id ∈ b.ids
  · rw [Build.addNode_old old]
    exact
      { unique := by
          have keeps (m : ExecutionGraphNode) : (m.merge n).id = m.id := rfl
          rw [Build.ids, Keyed.map_key_amend keeps]
          exact h.unique
        nodes := by
          refine Keyed.forall_mem_amend h.nodes fun m found => ?_
          obtain ⟨kind, k', hk'⟩ := h.nodes m (Keyed.mem_of_get? found)
          refine ⟨kind, k', hk'.1, hk'.2.1, fun t owned => ?_⟩
          have kept : m.taskId = some t := hk'.2.2 t owned
          simp [ExecutionGraphNode.merge, kept]
        edges := h.edges
        tasks := h.tasks
        attempts := h.attempts
        stages := h.stages
        messages := h.messages
        links := h.links }
  · rw [Build.addNode_new old]
    exact
      { unique := by
          show ((b.nodes ++ [n]).map ExecutionGraphNode.id).Nodup
          rw [List.map_append, List.map_singleton, ← List.concat_eq_append]
          exact h.unique.concat old
        nodes := by
          intro m hm
          rcases List.mem_append.mp hm with before | here
          · exact h.nodes m before
          · obtain rfl := List.mem_singleton.mp here
            exact ⟨stands.2.1 ▸ allowed, k, stands⟩
        edges := h.edges
        tasks := h.tasks
        attempts := h.attempts
        stages := h.stages
        messages := h.messages
        links := h.links }

theorem addItem (h : b.Typed scope) (stands : n.Stands k)
    (allowed : scope.nodes k.kind = true) : (b.addItem n).Typed scope :=
  let added := h.addNode stands allowed
  ⟨added.unique, added.nodes, added.edges, added.tasks, added.attempts, added.stages,
    added.messages,
    added.links⟩

theorem noteLink (h : b.Typed scope) (t : String) (i : Nat) (timestamp : Option String) :
    Build.Typed scope { b with
      pendingRetryLinks := b.pendingRetryLinks ++ [⟨t, (Key.retry t i).render, timestamp⟩] } where
  unique := h.unique
  nodes := h.nodes
  edges := h.edges
  tasks := h.tasks
  attempts := h.attempts
  stages := h.stages
  messages := h.messages
  links := by
    intro l hl
    rcases List.mem_append.mp hl with old | new
    · exact h.links l old
    · obtain rfl := List.mem_singleton.mp new
      exact ⟨i, rfl⟩

theorem noteAttempt (h : b.Typed scope) (t : String) (i : Nat) :
    Build.Typed scope { b with
      attemptsByTask := Function.update b.attemptsByTask t
        (b.attemptsByTask t ++ [(Key.attempt t i).render]) } where
  unique := h.unique
  nodes := h.nodes
  edges := h.edges
  tasks := h.tasks
  attempts := by
    intro t' id mem
    dsimp only at mem
    by_cases here : t' = t
    · subst here
      rw [Function.update_self, List.mem_append, List.mem_singleton] at mem
      rcases mem with old | rfl
      · exact h.attempts t' id old
      · exact ⟨i, rfl⟩
    · rw [Function.update_of_ne here] at mem
      exact h.attempts t' id mem
  stages := h.stages
  messages := h.messages
  links := h.links

theorem noteStage (h : b.Typed scope) (s : String) (i : Nat) :
    Build.Typed scope { b with
      stageAttempts := b.stageAttempts ++ [(Key.stage s i).render] } where
  unique := h.unique
  nodes := h.nodes
  edges := h.edges
  tasks := h.tasks
  attempts := h.attempts
  stages := by
    intro id mem
    rcases List.mem_append.mp mem with old | new
    · exact h.stages id old
    · exact ⟨s, i, List.mem_singleton.mp new⟩
  messages := h.messages
  links := h.links

theorem noteMessage (h : b.Typed scope) (m : String) :
    Build.Typed scope { b with
      workflowMessageNodes :=
        Function.update b.workflowMessageNodes m (some (Key.message m).render) } where
  unique := h.unique
  nodes := h.nodes
  edges := h.edges
  tasks := h.tasks
  attempts := h.attempts
  stages := h.stages
  messages := by
    intro m' id found
    dsimp only at found
    by_cases here : m' = m
    · subst here
      rw [Function.update_self] at found
      exact ⟨m', (Option.some.inj found).symm⟩
    · rw [Function.update_of_ne here] at found
      exact h.messages m' id found
  links := h.links

end Build.Typed

end Lookup

theorem taskNode_ok {b : Build} {t id : String} (h : b.taskNode t = .ok id) :
    b.taskNodeIds.lookup t = some id := by
  unfold Build.taskNode at h
  split at h
  · rename_i id' found
    rw [found, Except.ok.inj h]
  · cases h

/-! ## The loops -/

theorem ExecutionGraphNode.Stands.unowned {n : ExecutionGraphNode} {k : Key}
    (named : n.id = k.render) (kind : n.kind = k.kind) (unowned : k.owner = none) : n.Stands k := by
  refine ⟨named, kind, fun t owned => ?_⟩
  rw [unowned] at owned
  cases owned

section Stands

variable (c : Builtins) (t : String) (i : Nat) (item : Item)

theorem stands_attemptNode : (c.attemptNode t i item).Stands (.attempt t i) :=
  ⟨rfl, rfl, fun _ h => h⟩

theorem stands_sampleNode (size : Nat) (x : String × Item) :
    (c.sampleNode x.1 size x.2).Stands (.sample (c.sampleText size x)) :=
  .unowned (Described.sampleNode_id size x) rfl rfl

theorem stands_messageNode : (c.messageNode t item).Stands (.message (c.messageId item)) :=
  .unowned rfl rfl rfl

theorem stands_stageAttemptNode (x : String × Item) :
    (c.stageAttemptNode x.1 i x.2).Stands (.stage (c.stageText x) i) :=
  .unowned (Described.stageAttemptNode_id i x) rfl rfl

theorem stands_retryNode : (c.retryNode t i item).Stands (.retry t i) := ⟨rfl, rfl, fun _ h => h⟩

theorem stands_deadLetterNode : (c.deadLetterNode t i item).Stands (.dlq t i) :=
  .unowned rfl rfl rfl

theorem stands_statusNode (entries : List (Value × Value)) :
    (c.statusNode t i item entries).Stands (.status t i) := ⟨rfl, rfl, fun _ h => h⟩

theorem stands_recordNode : (c.recordNode t i item).Stands (.dlq (t ++ ":record") i) :=
  .unowned (recordId_eq t i) rfl rfl

theorem stands_taskNodeOf (root : String) :
    (taskNodeOf root t).Stands (if t = root then .task t else .child t) := by
  by_cases here : t = root
  · rw [if_pos here]
    exact ⟨if_pos here, if_pos here, fun _ h => h⟩
  · rw [if_neg here]
    exact ⟨if_neg here, if_neg here, fun _ h => h⟩

end Stands

namespace Build.Typed

variable {scope : Scope} {c : Builtins} {b b' : Build}
  {t : String} {item : Item}

theorem received_by_task {source target : NodeKind} (task : source.isTask = true)
    (received : target = .taskAttempt ∨ target = .workflowMessage) :
    Scope.observed.edges .receivedBy source target = true := by
  simp [Scope.observed, EdgeKind.joins, task, received]

theorem published_by_source {source : NodeKind}
    (h : (source = .taskAttempt || source = .stageAttempt || source.isTask) = true) :
    Scope.published.edges .publishedStatus source .statusEvent = true := by
  simpa [Scope.published, EdgeKind.joins] using h

theorem dead_lettered_by_source {source : NodeKind}
    (h : (source = .taskAttempt || source.isTask) = true) :
    Scope.linked.edges .deadLetteredTo source .dlqRecord = true := by
  simpa [Scope.linked, EdgeKind.joins] using h

/-- The node of the task, which the edges of its observations come from. -/
theorem taskNode (h : b.Typed scope) {id : String} (found : b.taskNode t = .ok id) :
    ∃ k : Key, k.kind.isTask = true ∧ k.owner = some t ∧ id = k.render :=
  h.tasks t id (taskNode_ok found)

theorem start (r : Request) : r.start.Typed .observed := by
  have shape : r.start = startOf r.taskId r.relatedIds :=
    foldl_addRelated (taskKeys_nodup.of_map _)
  rw [shape]
  exact
    { unique := by
        have distinct : (r.taskId :: r.relatedIds).Nodup := taskKeys_nodup.of_map _
        show (((r.taskId :: r.relatedIds).map (taskNodeOf r.taskId)).map _).Nodup
        rw [List.map_map]
        exact distinct.map taskNodeId_injective
      nodes := by
        intro n hn
        obtain ⟨t, -, rfl⟩ := List.mem_map.mp hn
        refine ⟨?_, _, stands_taskNodeOf t r.taskId⟩
        unfold taskNodeOf
        dsimp only
        split <;> rfl
      edges := by
        intro e he
        obtain ⟨t, -, rfl⟩ := List.mem_map.mp he
        refine ⟨_, _, (stands_taskNodeOf t r.taskId).1, (stands_taskNodeOf r.taskId r.taskId).1, ?_⟩
        split <;> simp [Scope.observed, EdgeKind.joins, NodeKind.isTask, Key.kind]
      tasks := by
        intro t id found
        rw [startOf, lookup_taskNodes] at found
        split at found
        · obtain rfl := Option.some.inj found
          refine ⟨if t = r.taskId then .task t else .child t, ?_, ?_,
            (stands_taskNodeOf t r.taskId).1⟩
          all_goals split <;> rfl
        · cases found
      attempts := nofun
      stages := nofun
      messages := nofun
      links := nofun }

theorem observeAttempt (h : b.Typed .observed) (ended : c.observeAttempt b t item = .ok b') :
    b'.Typed .observed := by
  obtain ⟨source, found, rfl⟩ := Failing.map_ok.mp ended
  let i := (b.attemptsByTask t).length + 1
  have added := (h.addItem (stands_attemptNode c t i item) rfl).noteAttempt t i
  obtain ⟨k, kind, -, named⟩ := added.taskNode found
  exact added.addEdge (k := k) (l := .attempt t i)
    ⟨named, rfl, received_by_task kind (Or.inl rfl)⟩

theorem addMessage (h : b.Typed .observed) (t : String) (item : Item) :
    (c.addMessage b t item).Typed .observed :=
  (h.addNode (stands_messageNode c t item) rfl).noteMessage (c.messageId item)

theorem observePublished (h : b.Typed .observed) (t : String) (item : Item) :
    (c.observePublished b t item).Typed .observed := by
  have added := h.addMessage (c := c) t item
  unfold Builtins.observePublished
  split
  · exact h
  · dsimp only
    split
    · split
      · rename_i attempt found
        obtain ⟨s, i, named⟩ := added.stage (mem_of_latestStageAttempt found)
        exact added.addEdge (k := .stage s i) (l := .message (c.messageId item)) ⟨named, rfl, rfl⟩
      · exact added
    · split
      · rename_i source found
        obtain ⟨k, kind, -, named⟩ := added.tasks t source found
        exact added.addEdge (k := k) (l := .message (c.messageId item))
          ⟨named, rfl, received_by_task kind (Or.inr rfl)⟩
      · exact added

theorem receivedMessage (h : b.Typed .observed) {m : Option String}
    (ended : c.receivedMessage b t item = .ok (b', m)) : b'.Typed .observed ∧
      ∀ id, m = some id → ∃ m', id = (Key.message m').render := by
  unfold Builtins.receivedMessage at ended
  split at ended
  · obtain ⟨rfl, rfl⟩ := Prod.mk.inj (Except.ok.inj ended)
    exact ⟨h, nofun⟩
  · split at ended
    · rename_i id found
      obtain ⟨rfl, rfl⟩ := Prod.mk.inj (Except.ok.inj ended)
      refine ⟨h, fun id' same => ?_⟩
      obtain rfl := Option.some.inj same
      exact h.messages _ _ found
    · obtain ⟨source, found, same⟩ := Failing.map_ok.mp ended
      obtain ⟨rfl, rfl⟩ := Prod.mk.inj same
      have added := h.addMessage (c := c) t item
      obtain ⟨k, kind, -, named⟩ := added.taskNode found
      refine ⟨added.addEdge (k := k) (l := .message (c.messageId item))
        ⟨named, rfl, received_by_task kind (Or.inr rfl)⟩, fun id' same => ?_⟩
      obtain rfl := Option.some.inj same
      exact ⟨_, rfl⟩

theorem observeReceived (h : b.Typed .observed)
    (ended : c.observeReceived b t item = .ok b') : b'.Typed .observed := by
  obtain ⟨⟨b₁, m⟩, received, rfl⟩ := Failing.map_ok.mp ended
  obtain ⟨typed, message⟩ := h.receivedMessage received
  let i := b₁.stages.countP (·.hasStage (c.stageName item)) + 1
  have stands := stands_stageAttemptNode c i (t, item)
  have added := (typed.addItem stands rfl).noteStage (c.stageText (t, item)) i
  rw [← stands.1] at added
  cases m with
  | none => exact added
  | some id =>
    obtain ⟨m', named⟩ := message id rfl
    exact added.addEdge (k := .message m') (l := .stage (c.stageText (t, item)) i)
      ⟨named, stands.1, rfl⟩

/-- The edge of a retry comes from an attempt of its task. -/
theorem observeRetry (h : b.Typed .observed) (t : String) (item : Item) :
    (c.observeRetry b t item).Typed .observed := by
  let i := b.edges.countP (Builtins.retried t) + 1
  have added := h.addNode (stands_retryNode c t i item) rfl
  unfold Builtins.observeRetry
  dsimp only
  split
  · rename_i attempt found
    obtain ⟨j, named⟩ := added.attempt (mem_of_latestAttempt found)
    exact (added.addEdge (k := .attempt t j) (l := .retry t i) ⟨named, rfl, rfl⟩).noteLink t i _
  · exact added.noteLink t i _

theorem observeDeadLetter (h : b.Typed .observed) (t : String) (item : Item) :
    (c.observeDeadLetter b t item).Typed .observed := by
  unfold Builtins.observeDeadLetter
  dsimp only
  have added := h.addItem (stands_deadLetterNode c t
    (b.nodes.countP (fun n => n.kind = .dlqRecord && n.taskId = some t) + 1) item) rfl
  split
  · rename_i attempt found
    obtain ⟨j, named⟩ := added.attempt (mem_of_latestAttempt found)
    exact added.addEdge (k := .attempt t j) (l := .dlq t _) ⟨named, rfl, rfl⟩
  · exact added

theorem observe {x : String × Item} (h : b.Typed .observed) (ended : c.observe b x = .ok b') :
    b'.Typed .observed := by
  unfold Builtins.observe at ended
  split at ended
  · exact h.observeAttempt ended
  · exact Except.ok.inj ended ▸ h.addItem (stands_sampleNode c _ _) rfl
  · exact Except.ok.inj ended ▸ h.observePublished _ _
  · exact h.observeReceived ended
  · exact Except.ok.inj ended ▸ h.observeRetry _ _
  · exact Except.ok.inj ended ▸ h.observeDeadLetter _ _
  · exact Except.ok.inj ended ▸ h

theorem statusSource {topology : RelaynaTopology} {timestamp : Option String} {id : String}
    (h : b.Typed scope) (found : Builtins.statusSource topology b t timestamp = .ok id) :
    ∃ k : Key, id = k.render ∧
      (k.kind = .taskAttempt || k.kind = .stageAttempt || k.kind.isTask) = true := by
  unfold Builtins.statusSource at found
  dsimp only at found
  split at found
  · rename_i attempt source
    obtain rfl := Except.ok.inj found
    split at source
    · obtain ⟨s, i, named⟩ := h.stage (mem_of_latestStageAttempt source)
      exact ⟨_, named, rfl⟩
    · obtain ⟨i, named⟩ := h.attempt (mem_of_latestAttempt source)
      exact ⟨_, named, rfl⟩
  · obtain ⟨k, kind, -, named⟩ := h.taskNode found
    exact ⟨k, named, by simp [kind]⟩

theorem linkManualRetry (h : b.Typed .published) (t : String) (event : Item)
    (timestamp : Option String) :
    (c.linkManualRetry b t event timestamp).Typed .published := by
  unfold Builtins.linkManualRetry
  split
  · dsimp only
    split
    · rename_i source target before after
      obtain ⟨i, from_attempt⟩ := h.attempt (mem_of_latestAttempt before)
      obtain ⟨j, to_attempt⟩ := h.attempt (mem_of_nextAttempt after)
      exact h.addEdge (k := .attempt t i) (l := .attempt t j) ⟨from_attempt, to_attempt, rfl⟩
    · exact h
  · exact h

theorem addStatus {topology : RelaynaTopology} {e : String × Nat × Item}
    (h : b.Typed .published) (ended : c.addStatus topology b e = .ok b') :
    b'.Typed .published := by
  obtain ⟨entries, -, ended⟩ := Failing.bind_ok.mp ended
  obtain ⟨source, found, rfl⟩ := Failing.map_ok.mp ended
  have added := h.addItem (stands_statusNode c e.1 e.2.1 e.2.2 entries) rfl
  obtain ⟨k, named, kind⟩ := added.statusSource found
  exact (added.addEdge (k := k) (l := .status e.1 e.2.1)
    ⟨named, rfl, published_by_source kind⟩).linkManualRetry _ _ _

theorem linkRetry {l : PendingRetryLink} (h : b.Typed .linked)
    (retry : ∃ i, l.retryNodeId = (Key.retry l.taskId i).render) :
    (Builtins.linkRetry b l).Typed .linked := by
  unfold Builtins.linkRetry
  split
  · rename_i next found
    obtain ⟨i, from_retry⟩ := retry
    obtain ⟨j, to_attempt⟩ := h.attempt (mem_of_nextAttempt found)
    exact h.addEdge (k := .retry l.taskId i) (l := .attempt l.taskId j)
      ⟨from_retry, to_attempt, rfl⟩
  · exact h

theorem linkRetries {links : List PendingRetryLink} (h : b.Typed .linked)
    (retries : ∀ l ∈ links, ∃ i, l.retryNodeId = (Key.retry l.taskId i).render) :
    (links.foldl Builtins.linkRetry b).Typed .linked := by
  induction links generalizing b with
  | nil => exact h
  | cons l links ih =>
    rw [List.forall_mem_cons] at retries
    exact ih (h.linkRetry retries.1) retries.2

theorem recordSource {timestamp : Option String} {id : String} (h : b.Typed scope)
    (found : Execution.recordSource b t timestamp = .ok id) :
    ∃ k : Key, id = k.render ∧ (k.kind = .taskAttempt || k.kind.isTask) = true := by
  unfold Execution.recordSource at found
  split at found
  · rename_i attempt source
    obtain rfl := Except.ok.inj found
    obtain ⟨i, named⟩ := h.attempt (mem_of_latestAttempt source)
    exact ⟨_, named, rfl⟩
  · obtain ⟨k, kind, -, named⟩ := h.taskNode found
    exact ⟨k, named, by simp [kind]⟩

theorem addRecord {e : String × Nat × Item} (h : b.Typed .linked)
    (ended : c.addRecord b e = .ok b') : b'.Typed .linked := by
  by_cases old : (c.recordNode e.1 e.2.1 e.2.2).id ∈ b.ids
  · have kept : c.addRecord b e = .ok { b with
        itemNodes := b.itemNodes ++ [(c.recordNode e.1 e.2.1 e.2.2).id] } := if_pos old
    obtain rfl := Except.ok.inj (kept.symm.trans ended)
    exact ⟨h.unique, h.nodes, h.edges, h.tasks, h.attempts, h.stages, h.messages, h.links⟩
  · rw [addRecord_new old] at ended
    obtain ⟨source, found, rfl⟩ := Failing.map_ok.mp ended
    have stands := stands_recordNode c e.1 e.2.1 e.2.2
    have added := h.addItem stands rfl
    obtain ⟨k, named, kind⟩ := added.recordSource found
    refine added.addEdge (k := k) (l := .dlq (e.1 ++ ":record") e.2.1) ⟨named, stands.1, ?_⟩
    exact dead_lettered_by_source kind

end Build.Typed

/-- The graphs between the loops. -/
theorem collect_ok {r : Request} {c : Builtins} {b : Build} (h : r.collect c = .ok b) :
    ∃ b₁ b₂, (r.observations c).foldlM c.observe r.start = .ok b₁ ∧
      (r.statuses c).foldlM (c.addStatus r.topology) b₁ = .ok b₂ ∧
      r.records.foldlM c.addRecord (b₂.pendingRetryLinks.foldl Builtins.linkRetry b₂) = .ok b := by
  obtain ⟨b₁, observed, h⟩ := Failing.bind_ok.mp h
  obtain ⟨b₂, published, h⟩ := Failing.bind_ok.mp h
  exact ⟨b₁, b₂, observed, published, h⟩

theorem observations_typed {r : Request} {c : Builtins} {b : Build}
    (h : (r.observations c).foldlM c.observe r.start = .ok b) : b.Typed .observed :=
  Failing.foldlM_ok (I := fun _ b => b.Typed .observed) (fun typed ended => typed.observe ended)
    (Build.Typed.start r) h

theorem Build.Typed.publish {b : Build} (typed : b.Typed .observed) : b.Typed .published :=
  typed.mono (fun _ _ => rfl) fun kind k l joined => by
    simp only [Scope.observed, Bool.and_eq_true] at joined
    exact joined.1.1

theorem Build.Typed.link {b : Build} (typed : b.Typed .published) : b.Typed .linked :=
  typed.mono (fun _ _ => rfl) fun kind k l joined => Bool.or_eq_true_iff.mpr (Or.inl joined)

theorem statuses_typed {r : Request} {c : Builtins} {b b' : Build} (typed : b.Typed .published)
    (h : (r.statuses c).foldlM (c.addStatus r.topology) b = .ok b') : b'.Typed .published :=
  Failing.foldlM_ok (I := fun _ b => b.Typed .published)
    (fun typed ended => typed.addStatus ended) typed h

theorem links_typed {b : Build} (typed : b.Typed .published) :
    (b.pendingRetryLinks.foldl Builtins.linkRetry b).Typed .linked :=
  typed.link.linkRetries typed.links

theorem records_typed {r : Request} {c : Builtins} {b b' : Build} (typed : b.Typed .linked)
    (h : r.records.foldlM c.addRecord b = .ok b') : b'.Typed .linked :=
  Failing.foldlM_ok (I := fun _ b => b.Typed .linked)
    (fun typed ended => typed.addRecord ended) typed h

/-- Every edge of a graph joins nodes of the kinds that belong to it. -/
theorem collect_typed {r : Request} {c : Builtins} {b : Build} (h : r.collect c = .ok b) :
    b.Typed .linked := by
  obtain ⟨b₁, b₂, observed, published, recorded⟩ := collect_ok h
  exact records_typed (links_typed (statuses_typed (observations_typed observed).publish published))
    recorded

end Relayna.Observability.Execution
