import Relayna.Observability.GraphTyping
import Relayna.Observability.WellFormed

/-!
# The retries of an execution graph

A retry is numbered by the `retried_as` edges of its task so far, and such an edge is drawn when
the task has an attempt. The retries before the first attempt are therefore all given the number 1,
and the first one after it too: `add_node` merges them into one node.
-/
namespace Relayna.Observability.Execution

open Python Contracts

/-! ## What the observations say of the retries -/

namespace Builtins

variable (c : Builtins)

/-- The retries of the task so far. -/
def retryCount (past : List (String × Item)) (taskId : String) : Nat :=
  past.countP fun x => c.eventKind x.2 = .retryScheduled && x.1 = taskId

/-- The ids and the times of the attempts of the task, in the order of the receptions. -/
def attemptMarks (taskId : String) : List (String × Item) → List (String × String)
  | [] => []
  | x :: past => attemptMarks taskId past ++
      if c.eventKind x.2 = .messageReceived ∧ x.1 = taskId then
        [((Key.attempt taskId (c.attemptCount past taskId + 1)).render, c.eventTimestamp x.2)]
      else []

/-- The nodes of the retries, when every one has a number of its own. -/
def retryNodes : List (String × Item) → List ExecutionGraphNode
  | [] => []
  | x :: past => retryNodes past ++
      if c.eventKind x.2 = .retryScheduled then
        [c.retryNode x.1 (c.linkedRetries x.1 past + 1) x.2]
      else []

/-- The links that are pending after the observations. -/
def retryLinks : List (String × Item) → List PendingRetryLink
  | [] => []
  | x :: past => retryLinks past ++
      if c.eventKind x.2 = .retryScheduled then
        [⟨x.1, (Key.retry x.1 (c.linkedRetries x.1 past + 1)).render,
          some (c.eventTimestamp x.2)⟩]
      else []

/-- The retries that have a node of their own. -/
def newRetries : List (String × Item) → Nat
  | [] => 0
  | x :: past => newRetries past +
      if c.eventKind x.2 = .retryScheduled ∧ c.newRetry past x.1 = true then 1 else 0

/-- Every retry has a node of its own. -/
def RetriesNew : List (String × Item) → Prop
  | [] => True
  | x :: past => RetriesNew past ∧
      (c.eventKind x.2 = .retryScheduled → c.newRetry past x.1 = true)

/-- What is shown of a retry: its task, its `retry_attempt` and its time. -/
def retryView (x : String × Item) : Option String × Option AnnotationValue × Option String :=
  (some x.1, some (.value ((x.2.lookup "retry_attempt").getD .none)), some (c.eventTimestamp x.2))

end Builtins

def ExecutionGraphNode.retryView (n : ExecutionGraphNode) :
    Option String × Option AnnotationValue × Option String :=
  (n.taskId, n.annotations.lookup "retry_attempt", n.timestamp)

section Counts

variable {c : Builtins} {past : List (String × Item)} {t : String}

theorem retryCount_cons (x : String × Item) : c.retryCount (x :: past) t =
    c.retryCount past t + if c.eventKind x.2 = .retryScheduled ∧ x.1 = t then 1 else 0 := by
  simp [Builtins.retryCount, List.countP_cons]

theorem linkedRetries_cons (x : String × Item) : c.linkedRetries t (x :: past) =
    c.linkedRetries t past +
      if c.eventKind x.2 = .retryScheduled ∧ x.1 = t ∧ c.attemptCount past t ≠ 0 then 1 else 0 :=
  rfl

theorem retrySeen_iff : c.retrySeen past t = true ↔ c.retryCount past t ≠ 0 := by
  rw [← Nat.pos_iff_ne_zero, Builtins.retryCount, List.countP_pos_iff, Builtins.retrySeen,
    List.any_eq_true]

theorem length_attemptMarks : (c.attemptMarks t past).length = c.attemptCount past t := by
  induction past with
  | nil => rfl
  | cons x past ih =>
    rw [Builtins.attemptMarks, attemptCount_cons, List.length_append, ih]
    split <;> rfl

theorem linkedRetries_le : c.linkedRetries t past ≤ c.retryCount past t := by
  induction past with
  | nil => exact Nat.le_refl 0
  | cons x past ih =>
    rw [Builtins.linkedRetries, retryCount_cons]
    split
    · rename_i here
      rw [if_pos ⟨here.1, here.2.1⟩]
      omega
    · omega

theorem newRetry_iff : c.newRetry past t = true ↔
    c.linkedRetries t past ≠ 0 ∨ c.retryCount past t = 0 := by
  rw [Builtins.newRetry, Bool.or_eq_true, decide_eq_true_eq, Bool.not_eq_true', ← Bool.not_eq_true,
    retrySeen_iff, not_not]

/-- Every retry has a node of its own when each task has at most one, or has none before its first
attempt. -/
theorem retriesNew_iff : c.RetriesNew past ↔
    ∀ t, c.retryCount past t ≤ 1 ∨ c.linkedRetries t past = c.retryCount past t := by
  induction past with
  | nil => simp [Builtins.RetriesNew, Builtins.retryCount]
  | cons x past ih =>
    rw [Builtins.RetriesNew, ih]
    have counts (t : String) : c.retryCount (x :: past) t = _ := retryCount_cons x
    have below (t : String) : c.linkedRetries t past ≤ c.retryCount past t := linkedRetries_le
    have linked (t : String) : c.linkedRetries t (x :: past) = _ := linkedRetries_cons x
    have attempted (t : String) : c.attemptCount past t ≠ 0 ∨ c.linkedRetries t past = 0 :=
      or_iff_not_imp_right.mpr attemptCount_of_linkedRetries
    by_cases kind : c.eventKind x.2 = .retryScheduled
    · simp only [kind, true_and, forall_const] at counts linked ⊢
      rw [newRetry_iff]
      constructor
      · rintro ⟨before, new⟩ t
        rw [counts, linked]
        have := before t
        have := below t
        have := attempted t
        by_cases here : x.1 = t
        · subst here
          simp only [true_and, if_true]
          split <;> omega
        · simpa [here] using before t
      · intro after
        refine ⟨fun t => ?_, ?_⟩
        · have := below t
          have after := after t
          rw [counts, linked] at after
          by_cases here : x.1 = t
          · simp only [here, true_and, if_true] at after
            split at after <;> omega
          · simpa [here] using after
        · have := below x.1
          have after := after x.1
          rw [counts, linked, if_pos rfl] at after
          split at after <;> omega
    · simp only [kind, false_and, if_false, Nat.add_zero, IsEmpty.forall_iff, and_true]
        at counts linked ⊢
      simp only [counts, linked]

/-- Every retry of the task comes after an attempt of it. -/
theorem linkedRetries_eq_iff {observations : List (String × Item)} :
    c.linkedRetries t observations.reverse = c.retryCount observations.reverse t ↔
      ∀ u x v, observations = u ++ x :: v → c.eventKind x.2 = .retryScheduled → x.1 = t →
        c.attemptCount u.reverse t ≠ 0 := by
  have step (past : List (String × Item)) (x : String × Item) :
      c.linkedRetries t (x :: past) = c.retryCount (x :: past) t ↔
        c.linkedRetries t past = c.retryCount past t ∧
          (c.eventKind x.2 = .retryScheduled → x.1 = t → c.attemptCount past t ≠ 0) := by
    have below : c.linkedRetries t past ≤ c.retryCount past t := linkedRetries_le
    rw [linkedRetries_cons, retryCount_cons]
    by_cases here : c.eventKind x.2 = .retryScheduled ∧ x.1 = t
    · by_cases attempted : c.attemptCount past t = 0
      · simp only [here, attempted, ne_eq, not_true_eq_false, and_false, if_false, and_self,
          if_true, imp_false, iff_false]
        omega
      · simp [here, attempted]
    · have elsewhere : ¬(c.eventKind x.2 = .retryScheduled ∧ x.1 = t ∧
          c.attemptCount past t ≠ 0) := fun h => here ⟨h.1, h.2.1⟩
      rw [if_neg here, if_neg elsewhere]
      exact ⟨fun same => ⟨same, fun kind task => absurd ⟨kind, task⟩ here⟩, And.left⟩
  have rounds : c.linkedRetries t (observations.reverse ++ []) =
      c.retryCount (observations.reverse ++ []) t ↔ _ :=
    Failing.rounds_of_step (P := fun past => c.linkedRetries t past = c.retryCount past t) step
  rw [List.append_nil, Failing.rounds_iff] at rounds
  rw [rounds]
  simp only [List.append_nil, and_iff_right_iff_imp]
  exact fun _ => rfl

theorem newRetries_le :
    c.newRetries past ≤ past.countP (fun x => c.eventKind x.2 = .retryScheduled) ∧
    (c.newRetries past = past.countP (fun x => c.eventKind x.2 = .retryScheduled) ↔
      c.RetriesNew past) := by
  induction past with
  | nil => simp [Builtins.newRetries, Builtins.RetriesNew]
  | cons x past ih =>
    obtain ⟨below, exactly⟩ := ih
    rw [Builtins.newRetries, Builtins.RetriesNew, ← exactly, List.countP_cons]
    by_cases kind : c.eventKind x.2 = .retryScheduled
    · by_cases new : c.newRetry past x.1 = true
      · simp only [kind, new, and_self, if_true, decide_true, forall_const, and_true]
        omega
      · simp only [kind, new, decide_true, if_true, forall_const, Bool.false_eq_true, and_false,
          if_false, iff_false]
        omega
    · simp [kind, below]

theorem views_retryNodes (past : List (String × Item)) :
    (c.retryNodes past).map ExecutionGraphNode.retryView =
      (past.reverse.filter fun x => c.eventKind x.2 = .retryScheduled).map c.retryView := by
  induction past with
  | nil => rfl
  | cons x past ih =>
    rw [Builtins.retryNodes, List.map_append, ih, List.reverse_cons, List.filter_append,
      List.map_append]
    by_cases kind : c.eventKind x.2 = .retryScheduled
    · simp only [kind, if_true, List.filter_singleton, decide_true]
      simp [ExecutionGraphNode.retryView, Builtins.retryNode, Builtins.retryView, noted,
        List.lookup_cons]
    · simp [kind]

/-- The link of a retry's node. -/
def ExecutionGraphNode.link (n : ExecutionGraphNode) : PendingRetryLink :=
  ⟨n.taskId.getD "", n.id, n.timestamp⟩

theorem retryLinks_eq (past : List (String × Item)) :
    c.retryLinks past = (c.retryNodes past).map ExecutionGraphNode.link := by
  induction past with
  | nil => rfl
  | cons x past ih =>
    rw [Builtins.retryLinks, Builtins.retryNodes, List.map_append, ih]
    split <;> rfl

end Counts

/-! ## What leaves the retries alone -/

/-- The keys of the attempts and the retries. -/
def Key.isCounted : Key → Bool
  | attempt _ _ | retry _ _ => true
  | _ => false

def Build.retries (b : Build) : List ExecutionGraphNode := b.nodes.filter (·.kind = .retry)

/-- The attempts and the retries of the second graph are those of the first. -/
structure Build.Quiet (b b' : Build) : Prop where
  known : ∀ k : Key, k.isCounted = true → (k.render ∈ b'.ids ↔ k.render ∈ b.ids)
  tasks : b'.taskNodeIds = b.taskNodeIds
  attemptsByTask : b'.attemptsByTask = b.attemptsByTask
  attempts : ∀ t, b'.attempts t = b.attempts t
  retried : ∀ t, b'.edges.countP (Builtins.retried t) = b.edges.countP (Builtins.retried t)
  links : b'.pendingRetryLinks = b.pendingRetryLinks
  retries : b'.retries = b.retries

namespace Build.Quiet

variable {scope : Scope} {c : Builtins} {b b' b'' : Build}
  {n : ExecutionGraphNode} {k : Key} {t : String} {item : Item}

theorem refl (b : Build) : Quiet b b :=
  ⟨fun _ _ => Iff.rfl, rfl, rfl, fun _ => rfl, fun _ => rfl, rfl, rfl⟩

theorem trans (h : Quiet b b') (h' : Quiet b' b'') : Quiet b b'' where
  known k counted := (h'.known k counted).trans (h.known k counted)
  tasks := h'.tasks.trans h.tasks
  attemptsByTask := h'.attemptsByTask.trans h.attemptsByTask
  attempts t := (h'.attempts t).trans (h.attempts t)
  retried t := (h'.retried t).trans (h.retried t)
  links := h'.links.trans h.links
  retries := h'.retries.trans h.retries

theorem addEdge (b : Build) {e : ExecutionGraphEdge} (kind : e.kind ≠ .retriedAs) :
    Quiet b (b.addEdge e) :=
  { refl b with
    retried := by
      intro t
      simp [Build.addEdge, Builtins.retried, kind] }

end Build.Quiet

/-- The ids after `add_node`. -/
theorem mem_ids_addNode {b : Build} {n : ExecutionGraphNode} {id : String} :
    id ∈ (b.addNode n).ids ↔ id ∈ b.ids ∨ id = n.id := by
  by_cases old : n.id ∈ b.ids
  · have keeps (m : ExecutionGraphNode) : (m.merge n).id = m.id := rfl
    rw [Build.addNode_old old, Build.ids, Keyed.map_key_amend keeps]
    refine ⟨Or.inl, ?_⟩
    rintro (mem | rfl)
    · exact mem
    · exact old
  · rw [Build.addNode_new old]
    simp [Build.ids]

/-- A node of another kind, or one that is there already, is not a new retry. -/
theorem retries_addNode_old {scope : Scope} {b : Build}
    {n : ExecutionGraphNode} {k : Key} (typed : b.Typed scope) (stands : n.Stands k)
    (other : k.kind ≠ .retry) : (b.addNode n).retries = b.retries := by
  by_cases old : n.id ∈ b.ids
  · rw [Build.addNode_old old]
    refine Keyed.filter_amend fun m found => ?_
    have named : m.id = k.render := (Keyed.key_of_get? found).trans stands.1
    have kind : m.kind = k.kind := (typed.stands (Keyed.mem_of_get? found) named).2.1
    simp [ExecutionGraphNode.merge, kind, other]
  · rw [Build.addNode_new old]
    have kind : n.kind ≠ .retry := stands.2.1 ▸ other
    simp [Build.retries, List.filter_append, kind]

theorem Build.Quiet.addNode {scope : Scope} {b : Build}
    {n : ExecutionGraphNode} {k : Key} (typed : b.Typed scope) (stands : n.Stands k)
    (uncounted : k.isCounted = false) : Quiet b (b.addNode n) where
  known k' counted := by
    rw [mem_ids_addNode, stands.1]
    refine or_iff_left fun same => ?_
    obtain rfl := Key.render_injective same
    exact Bool.noConfusion (counted.symm.trans uncounted)
  tasks := by
    unfold Build.addNode
    split <;> rfl
  attemptsByTask := by
    unfold Build.addNode
    split <;> rfl
  attempts t := by
    have same : (b.addNode n).attemptsByTask = b.attemptsByTask := by
      unfold Build.addNode
      split <;> rfl
    rw [Build.attempts, same]
    refine Build.filterMap_addNode fun mem => ?_
    obtain ⟨i, named⟩ := typed.attempts t n.id mem
    obtain rfl := Key.render_injective (stands.1.symm.trans named)
    cases uncounted
  retried t := by
    unfold Build.addNode
    split <;> rfl
  links := by
    unfold Build.addNode
    split <;> rfl
  retries := by
    refine retries_addNode_old typed stands fun kind => ?_
    cases k <;> first | cases kind; done | cases uncounted

namespace Build.Quiet

variable {scope : Scope} {c : Builtins} {b b' : Build}
  {n : ExecutionGraphNode} {k : Key} {t : String} {item : Item}

/-- Notes of other things than attempts, retries and their links. -/
theorem of_eq (nodes : b'.nodes = b.nodes) (edges : b'.edges = b.edges)
    (tasks : b'.taskNodeIds = b.taskNodeIds) (attempts : b'.attemptsByTask = b.attemptsByTask)
    (links : b'.pendingRetryLinks = b.pendingRetryLinks) : Quiet b b' where
  known _ _ := by rw [Build.ids, nodes, Build.ids]
  tasks := tasks
  attemptsByTask := attempts
  attempts t := by
    have found : b'.node? = b.node? := by
      funext id
      rw [Build.node?, nodes, Build.node?]
    rw [Build.attempts, Build.attempts, attempts, found]
  retried _ := by rw [edges]
  links := links
  retries := by rw [Build.retries, nodes, Build.retries]

theorem addItem (typed : b.Typed scope) (stands : n.Stands k) (uncounted : k.isCounted = false) :
    Quiet b (b.addItem n) :=
  (addNode typed stands uncounted).trans (of_eq rfl rfl rfl rfl rfl)

theorem addMessage (typed : b.Typed scope) (t : String) (item : Item) :
    Quiet b (c.addMessage b t item) :=
  (addNode typed (stands_messageNode c t item) rfl).trans (of_eq rfl rfl rfl rfl rfl)

theorem observePublished (typed : b.Typed scope) (t : String) (item : Item) :
    Quiet b (c.observePublished b t item) := by
  have added : Quiet b (c.addMessage b t item) := addMessage typed t item
  unfold Builtins.observePublished
  split
  · exact refl b
  · dsimp only
    split
    · split
      · exact added.trans (addEdge _ EdgeKind.noConfusion)
      · exact added
    · split
      · exact added.trans (addEdge _ EdgeKind.noConfusion)
      · exact added

theorem receivedMessage (typed : b.Typed scope) {m : Option String}
    (ended : c.receivedMessage b t item = .ok (b', m)) : Quiet b b' := by
  unfold Builtins.receivedMessage at ended
  split at ended
  · obtain ⟨rfl, -⟩ := Prod.mk.inj (Except.ok.inj ended)
    exact refl b
  · split at ended
    · obtain ⟨rfl, -⟩ := Prod.mk.inj (Except.ok.inj ended)
      exact refl b
    · obtain ⟨source, -, same⟩ := Failing.map_ok.mp ended
      obtain ⟨rfl, -⟩ := Prod.mk.inj same
      exact (addMessage typed t item).trans (addEdge _ EdgeKind.noConfusion)

theorem noteStage (b : Build) (ids : List String) : Quiet b { b with stageAttempts := ids } :=
  of_eq rfl rfl rfl rfl rfl

theorem observeReceived (typed : b.Typed .observed)
    (ended : c.observeReceived b t item = .ok b') : Quiet b b' := by
  obtain ⟨⟨b₁, m⟩, received, rfl⟩ := Failing.map_ok.mp ended
  have before := receivedMessage typed received
  have added := addItem (typed.receivedMessage received).1
    (stands_stageAttemptNode c (b₁.stages.countP (·.hasStage (c.stageName item)) + 1) (t, item)) rfl
  cases m with
  | none => exact before.trans (added.trans (noteStage _ _))
  | some id =>
    exact before.trans (added.trans ((noteStage _ _).trans (addEdge _ EdgeKind.noConfusion)))

theorem observeDeadLetter (typed : b.Typed scope) (t : String) (item : Item) :
    Quiet b (c.observeDeadLetter b t item) := by
  unfold Builtins.observeDeadLetter
  dsimp only
  have added := addItem typed (stands_deadLetterNode c t
    (b.nodes.countP (fun n => n.kind = .dlqRecord && n.taskId = some t) + 1) item) rfl
  split
  · exact added.trans (addEdge _ EdgeKind.noConfusion)
  · exact added

theorem linkManualRetry (b : Build) (t : String) (event : Item) (timestamp : Option String) :
    Quiet b (c.linkManualRetry b t event timestamp) := by
  unfold Builtins.linkManualRetry
  split
  · dsimp only
    split
    · exact addEdge _ EdgeKind.noConfusion
    · exact refl _
  · exact refl _

theorem addStatus {topology : RelaynaTopology} {e : String × Nat × Item} (typed : b.Typed scope)
    (ended : c.addStatus topology b e = .ok b') : Quiet b b' := by
  obtain ⟨entries, -, ended⟩ := Failing.bind_ok.mp ended
  obtain ⟨source, -, rfl⟩ := Failing.map_ok.mp ended
  have added := addItem typed (stands_statusNode c e.1 e.2.1 e.2.2 entries) rfl
  exact added.trans ((addEdge _ EdgeKind.noConfusion).trans (linkManualRetry _ _ _ _))

theorem addRecord {e : String × Nat × Item} (typed : b.Typed scope)
    (ended : c.addRecord b e = .ok b') : Quiet b b' := by
  by_cases old : (c.recordNode e.1 e.2.1 e.2.2).id ∈ b.ids
  · have kept : c.addRecord b e = .ok { b with
        itemNodes := b.itemNodes ++ [(c.recordNode e.1 e.2.1 e.2.2).id] } := if_pos old
    obtain rfl := Except.ok.inj (kept.symm.trans ended)
    exact of_eq rfl rfl rfl rfl rfl
  · rw [addRecord_new old] at ended
    obtain ⟨source, -, rfl⟩ := Failing.map_ok.mp ended
    exact (addItem typed (stands_recordNode c e.1 e.2.1 e.2.2) rfl).trans
      (addEdge _ EdgeKind.noConfusion)

end Build.Quiet

/-! ## The loop over the observations -/

/-- The attempts and the retries of a graph are those of the observations so far. -/
structure Tracked (r : Request) (c : Builtins) (past : List (String × Item)) (b : Build) :
    Prop where
  typed : b.Typed .observed
  tasks : b.taskNodeIds = r.start.taskNodeIds
  known : ∀ k : Key, k.isCounted = true → (k.render ∈ b.ids ↔ k ∈ r.keys c past)
  attemptIds : ∀ t, b.attemptsByTask t = (c.attemptMarks t past).map Prod.fst
  attempts : ∀ t, (b.attempts t).map (fun n => (n.id, n.timestamp)) =
    (c.attemptMarks t past).map fun m => (m.1, some m.2)
  retried : ∀ t, b.edges.countP (Builtins.retried t) = c.linkedRetries t past
  links : b.pendingRetryLinks = c.retryLinks past
  count : b.retries.length = c.newRetries past
  shown : c.RetriesNew past → b.retries = c.retryNodes past

namespace Tracked

variable {r : Request} {c : Builtins} {past : List (String × Item)} {b b' : Build}
  {x : String × Item}

theorem start (r : Request) (c : Builtins) : Tracked r c [] r.start := by
  have described := Described.start r c
  have typed := Build.Typed.start r
  have none_yet : r.start.retries = [] := by
    rw [Build.retries, List.filter_eq_nil_iff]
    intro n hn
    obtain ⟨-, k, stands⟩ := typed.nodes n hn
    have key : k ∈ r.taskKeys := described.mem_ids.mp (stands.1 ▸ List.mem_map_of_mem hn)
    have task := isTask_of_mem_taskKeys key
    rw [stands.2.1]
    cases k <;> first | cases task; done | simp [Key.kind]
  have attempts (t : String) : r.start.attemptsByTask t = [] := described.attempts t
  exact
    { typed := typed
      tasks := rfl
      known := fun k _ => described.mem_ids
      attemptIds := attempts
      attempts := by
        intro t
        rw [Build.attempts, attempts]
        rfl
      retried := described.retries
      links := by
        rw [show r.start = startOf r.taskId r.relatedIds from
          foldl_addRelated (taskKeys_nodup.of_map _)]
        rfl
      count := by rw [none_yet]; rfl
      shown := fun _ => none_yet }

theorem attempt_mem_ids (h : Tracked r c past b) {t id : String} (mem : id ∈ b.attemptsByTask t) :
    id ∈ b.ids := by
  have ids : (b.attempts t).map ExecutionGraphNode.id = b.attemptsByTask t := by
    have first := congrArg (List.map Prod.fst) (h.attempts t)
    rw [List.map_map, List.map_map] at first
    rw [h.attemptIds]
    exact first
  obtain ⟨n, hn, rfl⟩ := List.mem_map.mp (ids ▸ mem)
  exact Described.mem_ids_of_filterMap hn

/-- An observation that is neither an attempt nor a retry. -/
theorem quiet (h : Tracked r c past b) (unseen : Build.Quiet b b')
    (typed : b'.Typed .observed) (other : c.eventKind x.2 ≠ .messageReceived)
    (other' : c.eventKind x.2 ≠ .retryScheduled) : Tracked r c (x :: past) b' where
  typed := typed
  tasks := unseen.tasks.trans h.tasks
  known k counted := by
    rw [unseen.known k counted, h.known k counted, Request.keys, List.mem_append]
    refine (or_iff_left fun new => ?_).symm
    cases k <;> first | cases counted; done | skip
    · exact other (attempt_mem_newKeys.mp new).1
    · exact other' (retry_mem_newKeys.mp new).1
  attemptIds t := by
    rw [unseen.attemptsByTask, h.attemptIds, Builtins.attemptMarks, if_neg fun k => other k.1,
      List.append_nil]
  attempts t := by
    rw [unseen.attempts, h.attempts, Builtins.attemptMarks, if_neg fun k => other k.1,
      List.append_nil]
  retried t := by
    rw [unseen.retried, h.retried, linkedRetries_cons, if_neg fun k => other' k.1, Nat.add_zero]
  links := by
    rw [unseen.links, h.links, Builtins.retryLinks, if_neg other', List.append_nil]
  count := by
    rw [unseen.retries, h.count, Builtins.newRetries, if_neg fun k => other' k.1, Nat.add_zero]
  shown new := by
    rw [unseen.retries, h.shown new.1, Builtins.retryNodes, if_neg other', List.append_nil]

theorem observeAttempt (h : Tracked r c past b) (kind : c.eventKind x.2 = .messageReceived)
    (ended : c.observeAttempt b x.1 x.2 = .ok b') : Tracked r c (x :: past) b' := by
  have typed := h.typed.observeAttempt ended
  have number : (b.attemptsByTask x.1).length + 1 = c.attemptCount past x.1 + 1 := by
    rw [h.attemptIds, List.length_map, length_attemptMarks]
  obtain ⟨source, -, rfl⟩ := Failing.map_ok.mp ended
  rw [number] at typed ⊢
  let node := c.attemptNode x.1 (c.attemptCount past x.1 + 1) x.2
  have stands : node.Stands (.attempt x.1 (c.attemptCount past x.1 + 1)) :=
    stands_attemptNode c x.1 _ x.2
  have fresh : node.id ∉ b.ids := by
    rw [stands.1, h.known _ rfl, attempt_mem_keys]
    omega
  have marks (t : String) : c.attemptMarks t (x :: past) = c.attemptMarks t past ++
      if x.1 = t then [(node.id, c.eventTimestamp x.2)] else [] := by
    rw [Builtins.attemptMarks]
    simp only [kind, true_and]
    split
    · rename_i here
      rw [← here, stands.1]
    · rfl
  have ids (t : String) :
      Function.update b.attemptsByTask x.1 (b.attemptsByTask x.1 ++ [node.id]) t =
      b.attemptsByTask t ++ if x.1 = t then [node.id] else [] := by
    by_cases here : x.1 = t
    · subst here
      rw [Function.update_self, if_pos rfl]
    · rw [Function.update_of_ne (Ne.symm here), if_neg here, List.append_nil]
  have same : (b.addNode node).attemptsByTask = b.attemptsByTask := by
    rw [Build.addNode_new fresh]
  refine
    { typed := typed
      tasks := ?_
      known := ?_
      attemptIds := ?_
      attempts := ?_
      retried := ?_
      links := ?_
      count := ?_
      shown := ?_ }
  · rw [← h.tasks]
    show (b.addNode node).taskNodeIds = _
    unfold Build.addNode
    split <;> rfl
  · intro k counted
    show k.render ∈ (b.addNode node).ids ↔ _
    rw [mem_ids_addNode, stands.1, Request.keys, List.mem_append, h.known k counted,
      Builtins.newKeys]
    simp only [kind, List.mem_singleton, Key.render_injective.eq_iff]
  · intro t
    show Function.update (b.addNode node).attemptsByTask _
      ((b.addNode node).attemptsByTask _ ++ _) t = _
    rw [same, ids, h.attemptIds, marks, List.map_append]
    split <;> rfl
  · intro t
    show ((Function.update (b.addNode node).attemptsByTask _
      ((b.addNode node).attemptsByTask _ ++ _) t).filterMap (b.addNode node).node?).map _ = _
    have before : (b.attemptsByTask t).filterMap (b.addNode node).node? = b.attempts t :=
      Build.filterMap_addNode fun mem => fresh (h.attempt_mem_ids mem)
    rw [same, ids, List.filterMap_append, before, List.map_append, h.attempts, marks,
      List.map_append]
    split
    · rw [List.filterMap_cons, Build.node?_addNode_new fresh]
      rfl
    · rfl
  · intro t
    rw [linkedRetries_cons, if_neg fun k => EventKind.noConfusion (kind.symm.trans k.1),
      Nat.add_zero, ← h.retried]
    show List.countP _ ((b.addNode node).edges ++ [_]) = _
    rw [Build.addNode_new fresh]
    simp [Builtins.retried]
  · rw [Builtins.retryLinks, if_neg fun k => EventKind.noConfusion (kind.symm.trans k),
      List.append_nil, ← h.links]
    show (b.addNode node).pendingRetryLinks = _
    rw [Build.addNode_new fresh]
  · rw [Builtins.newRetries, if_neg fun k => EventKind.noConfusion (kind.symm.trans k.1),
      Nat.add_zero, ← h.count]
    exact congrArg List.length (retries_addNode_old h.typed stands NodeKind.noConfusion)
  · intro new
    rw [Builtins.retryNodes, if_neg fun k => EventKind.noConfusion (kind.symm.trans k),
      List.append_nil, ← h.shown new.1]
    exact retries_addNode_old h.typed stands NodeKind.noConfusion

theorem attempts_eq_nil (h : Tracked r c past b) {t : String} :
    b.attempts t = [] ↔ c.attemptCount past t = 0 := by
  rw [← length_attemptMarks, ← List.length_eq_zero_iff]
  have lengths := congrArg List.length (h.attempts t)
  rw [List.length_map, List.length_map] at lengths
  rw [lengths]

theorem observeRetry (h : Tracked r c past b) (kind : c.eventKind x.2 = .retryScheduled) :
    Tracked r c (x :: past) (c.observeRetry b x.1 x.2) := by
  have typed := h.typed.observeRetry (c := c) x.1 x.2
  have number := h.retried x.1
  let node := c.retryNode x.1 (c.linkedRetries x.1 past + 1) x.2
  have stands : node.Stands (.retry x.1 (c.linkedRetries x.1 past + 1)) :=
    stands_retryNode c x.1 _ x.2
  have fresh : node.id ∉ b.ids ↔ c.newRetry past x.1 = true := by
    rw [stands.1, h.known _ rfl, retry_notMem_keys]
  have other (t : String) : node.id ∉ b.attemptsByTask t := by
    intro mem
    obtain ⟨i, named⟩ := h.typed.attempts t _ mem
    cases Key.render_injective (stands.1.symm.trans named)
  have ids (t : String) : (b.addNode node).attemptsByTask t = b.attemptsByTask t := by
    unfold Build.addNode
    split <;> rfl
  have attempts (t : String) : (b.addNode node).attempts t = b.attempts t := by
    rw [Build.attempts, ids]
    exact Build.filterMap_addNode (other t)
  have edges : (b.addNode node).edges = b.edges := by
    unfold Build.addNode
    split <;> rfl
  have links : (b.addNode node).pendingRetryLinks = b.pendingRetryLinks := by
    unfold Build.addNode
    split <;> rfl
  -- The graph is the one with the node, and perhaps the edge to it.
  have shape : ∃ drawn : List ExecutionGraphEdge, c.observeRetry b x.1 x.2 = { b.addNode node with
      edges := b.edges ++ drawn
      allTimestamps := (c.observeRetry b x.1 x.2).allTimestamps
      pendingRetryLinks := b.pendingRetryLinks ++
        [⟨x.1, node.id, some (c.eventTimestamp x.2)⟩] } ∧
      ∀ t, drawn.countP (Builtins.retried t) =
        if x.1 = t ∧ c.attemptCount past t ≠ 0 then 1 else 0 := by
    unfold Builtins.observeRetry
    rw [number]
    dsimp only
    rw [attempts]
    cases found : latestAttempt (b.attempts x.1) node.timestamp with
    | none =>
      have never := h.attempts_eq_nil.mp (latestAttempt_eq_none.mp found)
      refine ⟨[], ?_, fun t => ?_⟩
      · rw [List.append_nil, ← edges, ← links]
        rfl
      · rw [if_neg]
        · rfl
        · rintro ⟨rfl, attempted⟩
          exact attempted never
    | some attempt =>
      have attempted : c.attemptCount past x.1 ≠ 0 := by
        intro never
        rw [latestAttempt_eq_none.mpr (h.attempts_eq_nil.mpr never)] at found
        cases found
      let edge : ExecutionGraphEdge :=
        { source := attempt.id, target := node.id, kind := .retriedAs,
          timestamp := node.timestamp, annotations := [("task_id", .value (.str x.1))] }
      refine ⟨[edge], ?_, fun t => ?_⟩
      · rw [← edges, ← links]
        rfl
      · rw [List.countP_singleton]
        by_cases here : x.1 = t
        · subst here
          simp [edge, Builtins.retried, AnnotationValue.isText, attempted]
        · simp [edge, Builtins.retried, AnnotationValue.isText, here]
  obtain ⟨drawn, shape, counts⟩ := shape
  rw [shape] at typed ⊢
  refine
    { typed := typed
      tasks := ?_
      known := ?_
      attemptIds := ?_
      attempts := ?_
      retried := ?_
      links := ?_
      count := ?_
      shown := ?_ }
  · rw [← h.tasks]
    show (b.addNode node).taskNodeIds = _
    unfold Build.addNode
    split <;> rfl
  · intro k counted
    show k.render ∈ (b.addNode node).ids ↔ _
    rw [mem_ids_addNode, stands.1, Request.keys, List.mem_append, h.known k counted,
      Builtins.newKeys]
    simp only [kind, mem_retryKeys, Key.render_injective.eq_iff]
    refine or_congr_right' fun absent => ⟨fun same => ⟨?_, same⟩, And.right⟩
    rw [← fresh, stands.1, h.known _ rfl, ← same]
    exact absent
  · intro t
    show (b.addNode node).attemptsByTask t = _
    rw [ids, h.attemptIds, Builtins.attemptMarks,
      if_neg fun k => EventKind.noConfusion (kind.symm.trans k.1), List.append_nil]
  · intro t
    show ((b.addNode node).attempts t).map _ = _
    rw [attempts, h.attempts, Builtins.attemptMarks,
      if_neg fun k => EventKind.noConfusion (kind.symm.trans k.1), List.append_nil]
  · intro t
    show (b.edges ++ drawn).countP _ = _
    rw [List.countP_append, h.retried, counts, linkedRetries_cons]
    simp only [kind, true_and]
  · show b.pendingRetryLinks ++ _ = _
    rw [h.links, Builtins.retryLinks, if_pos kind, stands.1]
  · show (b.addNode node).retries.length = _
    rw [Builtins.newRetries, ← h.count]
    by_cases new : c.newRetry past x.1 = true
    · rw [Build.addNode_new (fresh.mpr new), if_pos ⟨kind, new⟩]
      simp [Build.retries, List.filter_append, node, Builtins.retryNode]
    · have old : node.id ∈ b.ids := not_not.mp fun absent => new (fresh.mp absent)
      rw [Build.addNode_old old, if_neg fun k => new k.2, Nat.add_zero]
      obtain ⟨m, -, found, -⟩ := Build.node?_of_mem old
      have counted := Keyed.countP_amend (g := (·.merge node)) (p := (·.kind = .retry)) found
      rw [Build.retries, Build.retries, ← List.countP_eq_length_filter,
        ← List.countP_eq_length_filter]
      exact Nat.add_right_cancel counted
  · rintro ⟨before, new⟩
    show (b.addNode node).retries = _
    rw [Builtins.retryNodes, if_pos kind, ← h.shown before,
      Build.addNode_new (fresh.mpr (new kind))]
    simp [Build.retries, List.filter_append, node, Builtins.retryNode]

theorem observe (h : Tracked r c past b) (ended : c.observe b x = .ok b') :
    Tracked r c (x :: past) b' := by
  have typed := h.typed.observe ended
  unfold Builtins.observe at ended
  split at ended
  case h_1 kind => exact h.observeAttempt kind ended
  case h_5 kind => exact Except.ok.inj ended ▸ h.observeRetry kind
  all_goals
    rename_i kind
    refine h.quiet ?_ typed (fun k => EventKind.noConfusion (kind.symm.trans k))
      (fun k => EventKind.noConfusion (kind.symm.trans k))
  · exact Except.ok.inj ended ▸ .addItem h.typed (stands_sampleNode c _ _) rfl
  · exact Except.ok.inj ended ▸ .observePublished h.typed _ _
  · exact .observeReceived h.typed ended
  · exact Except.ok.inj ended ▸ .observeDeadLetter h.typed _ _
  · exact Except.ok.inj ended ▸ .refl b

end Tracked

theorem observations_tracked {r : Request} {c : Builtins} {b : Build}
    (h : (r.observations c).foldlM c.observe r.start = .ok b) : Tracked r c (r.past c) b :=
  Failing.foldlM_ok (I := fun done b => Tracked r c done.reverse b)
    (fun tracked ended => by
      rw [List.reverse_append]
      exact tracked.observe ended) (Tracked.start r c) h

/-! ## The later loops -/

/-- The edge that a pending link becomes. -/
def Build.linkEdge (b : Build) (l : PendingRetryLink) : Option ExecutionGraphEdge :=
  (nextAttempt (b.attempts l.taskId) l.retryTimestamp).map fun next =>
    { source := l.retryNodeId, target := next.id, kind := .receivedBy,
      timestamp := next.timestamp }

theorem linkRetry_eq (b : Build) (l : PendingRetryLink) :
    Builtins.linkRetry b l = (b.linkEdge l).elim b b.addEdge := by
  unfold Builtins.linkRetry Build.linkEdge
  cases nextAttempt (b.attempts l.taskId) l.retryTimestamp <;> rfl

theorem linkRetries_eq {b : Build} (links : List PendingRetryLink) :
    (links.foldl Builtins.linkRetry b).nodes = b.nodes ∧
      (links.foldl Builtins.linkRetry b).edges = b.edges ++ links.filterMap b.linkEdge := by
  induction links generalizing b with
  | nil => exact ⟨rfl, (List.append_nil _).symm⟩
  | cons l links ih =>
    obtain ⟨nodes, edges⟩ := ih (b := Builtins.linkRetry b l)
    rw [linkRetry_eq] at nodes edges
    rw [List.foldl_cons, List.filterMap_cons, linkRetry_eq]
    cases found : b.linkEdge l with
    | none =>
      rw [found] at nodes edges
      exact ⟨nodes, edges⟩
    | some e =>
      rw [found] at nodes edges
      refine ⟨nodes, edges.trans ?_⟩
      -- The edge does not change what the next links find.
      show (b.edges ++ [e]) ++ links.filterMap b.linkEdge = _
      rw [List.append_assoc, List.singleton_append]

theorem addRecord_edges {c : Builtins} {b b' : Build} {e : String × Nat × Item}
    (ended : c.addRecord b e = .ok b') :
    ∃ drawn, b'.edges = b.edges ++ drawn ∧ ∀ e ∈ drawn, e.kind = .deadLetteredTo := by
  by_cases old : (c.recordNode e.1 e.2.1 e.2.2).id ∈ b.ids
  · have kept : c.addRecord b e = .ok { b with
        itemNodes := b.itemNodes ++ [(c.recordNode e.1 e.2.1 e.2.2).id] } := if_pos old
    obtain rfl := Except.ok.inj (kept.symm.trans ended)
    exact ⟨[], (List.append_nil _).symm, nofun⟩
  · rw [addRecord_new old] at ended
    obtain ⟨source, -, rfl⟩ := Failing.map_ok.mp ended
    rw [Build.addItem, Build.addNode_new old]
    exact ⟨_, rfl, fun e he => by rw [List.mem_singleton.mp he]⟩

/-- The first attempt of the task that was received after the time, with the time of it. -/
def Request.attemptAfter (r : Request) (c : Builtins) (taskId timestamp : String) :
    Option (String × String) :=
  (c.attemptMarks taskId (r.past c)).find? (timestamp < ·.2)

/-- The edge from a retry to the attempt that follows it. -/
def Request.followEdge (r : Request) (c : Builtins) (l : PendingRetryLink) :
    Option ExecutionGraphEdge :=
  (l.retryTimestamp.bind (r.attemptAfter c l.taskId)).map fun m =>
    { source := l.retryNodeId, target := m.1, kind := .receivedBy, timestamp := some m.2 }

/-- What is collected in the end, of the retries. -/
structure Linked (r : Request) (c : Builtins) (b : Build) : Prop where
  typed : b.Typed .linked
  count : b.retries.length = c.newRetries (r.past c)
  shown : c.RetriesNew (r.past c) → b.retries = c.retryNodes (r.past c)
  received : ∀ k : Key, k.kind = .retry →
    b.edges.filter (fun e => e.source = k.render && e.kind = .receivedBy) =
      ((c.retryLinks (r.past c)).filterMap (r.followEdge c)).filter (·.source = k.render)

section Collected

variable {r : Request} {c : Builtins} {b b' : Build}

theorem statuses_quiet (typed : b.Typed .published)
    (h : (r.statuses c).foldlM (c.addStatus r.topology) b = .ok b') : Build.Quiet b b' := by
  have kept := Failing.foldlM_ok
    (I := fun _ b' => b'.Typed .published ∧ Build.Quiet b b')
    (fun kept ended => ⟨kept.1.addStatus ended, kept.2.trans (.addStatus kept.1 ended)⟩)
    ⟨typed, .refl b⟩ h
  exact kept.2

/-- The records add dead letters and the edges to them. -/
theorem records_quiet (typed : b.Typed .linked)
    (h : r.records.foldlM c.addRecord b = .ok b') :
    b'.retries = b.retries ∧ ∃ drawn, b'.edges = b.edges ++ drawn ∧
      ∀ e ∈ drawn, e.kind = .deadLetteredTo := by
  have kept := Failing.foldlM_ok
    (I := fun _ b' => b'.Typed .linked ∧ Build.Quiet b b' ∧
      ∃ drawn, b'.edges = b.edges ++ drawn ∧ ∀ e ∈ drawn, e.kind = .deadLetteredTo)
    (fun kept ended => by
      obtain ⟨typed, quiet, drawn, edges, kinds⟩ := kept
      obtain ⟨more, after, kinds'⟩ := addRecord_edges ended
      refine ⟨typed.addRecord ended, quiet.trans (.addRecord typed ended), drawn ++ more, ?_, ?_⟩
      · rw [after, edges, List.append_assoc]
      · exact fun e he => (List.mem_append.mp he).elim (kinds e) (kinds' e))
    ⟨typed, .refl b, [], (List.append_nil _).symm, nofun⟩ h
  exact ⟨kept.2.1.retries, kept.2.2⟩

theorem Tracked.linkEdge {past : List (String × Item)} (h : Tracked r c past b)
    (l : PendingRetryLink) : b.linkEdge l =
      (l.retryTimestamp.bind fun timestamp =>
        (c.attemptMarks l.taskId past).find? (timestamp < ·.2)).map fun m =>
          { source := l.retryNodeId, target := m.1, kind := .receivedBy,
            timestamp := some m.2 } := by
  unfold Build.linkEdge nextAttempt
  cases l.retryTimestamp with
  | none => rfl
  | some timestamp =>
    -- The search reads no more than the id and the time of an attempt.
    have found := congrArg (List.find? fun m => timestamp < m.2.getD "") (h.attempts l.taskId)
    rw [List.find?_map, List.find?_map] at found
    have edge := congrArg (Option.map fun m : String × Option String =>
      ({ source := l.retryNodeId, target := m.1, kind := .receivedBy,
         timestamp := m.2 } : ExecutionGraphEdge)) found
    rw [Option.map_map, Option.map_map] at edge
    exact edge

theorem collect_linked (h : r.collect c = .ok b) : Linked r c b := by
  obtain ⟨b₁, b₂, observed, published, recorded⟩ := collect_ok h
  have tracked := observations_tracked observed
  have typed := statuses_typed tracked.typed.publish published
  have quiet := statuses_quiet tracked.typed.publish published
  obtain ⟨retries, drawn, edges, kinds⟩ := records_quiet (links_typed typed) recorded
  obtain ⟨linked_nodes, linked_edges⟩ := linkRetries_eq (b := b₂) b₂.pendingRetryLinks
  have retries : b.retries = b₁.retries := by
    rw [retries, Build.retries, linked_nodes, ← Build.retries, quiet.retries]
  have edge : b₂.linkEdge = r.followEdge c := by
    funext l
    have same : b₂.linkEdge l = b₁.linkEdge l := by
      rw [Build.linkEdge, quiet.attempts, Build.linkEdge]
    rw [same, tracked.linkEdge]
    rfl
  refine ⟨collect_typed h, ?_, fun new => ?_, fun k retry => ?_⟩
  · rw [retries, tracked.count]
  · rw [retries, tracked.shown new]
  · have before : b₂.edges.filter (fun e => e.source = k.render && e.kind = .receivedBy) = [] := by
      rw [List.filter_eq_nil_iff]
      intro e he received
      simp only [Bool.and_eq_true, decide_eq_true_eq] at received
      obtain ⟨k', l, source, -, joined⟩ := typed.edges e he
      obtain rfl := Key.render_injective (source.symm.trans received.1)
      rw [received.2, retry] at joined
      cases joined
    have after : drawn.filter (fun e => e.source = k.render && e.kind = .receivedBy) = [] := by
      rw [List.filter_eq_nil_iff]
      intro e he received
      simp [kinds e he] at received
    rw [edges, linked_edges, List.filter_append, List.filter_append, before, after,
      List.nil_append, List.append_nil, quiet.links, tracked.links, edge]
    refine List.filter_congr fun e he => ?_
    obtain ⟨l, -, made⟩ := List.mem_filterMap.mp he
    obtain ⟨m, -, rfl⟩ := Option.map_eq_some_iff.mp made
    simp

end Collected

/-! ## Every retry is shown -/

/-- There is one node for each retry that was observed, with the task, the `retry_attempt` and the
time of it. At most one edge leaves it for an attempt that received the message, and this is the
first attempt of its task after it. -/
structure RetriesShown (r : Request) (c : Builtins) (g : ExecutionGraph) : Prop where
  nodes : ((g.nodes.filter (·.kind = .retry)).map ExecutionGraphNode.retryView).Perm
    (((r.observations c).filter fun x => c.eventKind x.2 = .retryScheduled).map c.retryView)
  links : ∀ n ∈ g.nodes, n.kind = .retry →
    g.edges.countP (fun e => e.source = n.id && e.kind = .receivedBy) ≤ 1 ∧
    ∀ e ∈ g.edges, e.source = n.id → e.kind = .receivedBy →
      ∃ t timestamp received, n.taskId = some t ∧ n.timestamp = some timestamp ∧
        r.attemptAfter c t timestamp = some (e.target, received)

/-- Every task has at most one retry, or it has none before its first attempt. -/
def RetriesAfterAttempts (r : Request) (c : Builtins) : Prop :=
  ∀ t, (r.observations c).countP (fun x => c.eventKind x.2 = .retryScheduled && x.1 = t) ≤ 1 ∨
    ∀ u x v, r.observations c = u ++ x :: v → c.eventKind x.2 = .retryScheduled → x.1 = t →
      ∃ y ∈ u, c.eventKind y.2 = .messageReceived ∧ y.1 = t

section Shown

variable {r : Request} {c : Builtins} {b : Build} {g : ExecutionGraph}

theorem retriesNew_past_iff : c.RetriesNew (r.past c) ↔ RetriesAfterAttempts r c := by
  rw [retriesNew_iff]
  refine forall_congr' fun t => ?_
  have count : c.retryCount (r.past c) t =
      (r.observations c).countP fun x => c.eventKind x.2 = .retryScheduled && x.1 = t :=
    List.countP_reverse
  have attempted (u : List (String × Item)) : c.attemptCount u.reverse t ≠ 0 ↔
      ∃ y ∈ u, c.eventKind y.2 = .messageReceived ∧ y.1 = t := by
    rw [← Nat.pos_iff_ne_zero, Builtins.attemptCount, List.countP_pos_iff]
    simp only [List.mem_reverse, Bool.and_eq_true, decide_eq_true_eq]
  simp only [← attempted]
  rw [count, ← linkedRetries_eq_iff, ← count, Request.past]

theorem retryNodes_fields {past : List (String × Item)} {n : ExecutionGraphNode}
    (hn : n ∈ c.retryNodes past) : ∃ t timestamp i, n.taskId = some t ∧
      n.timestamp = some timestamp ∧ n.id = (Key.retry t i).render := by
  induction past with
  | nil => simp [Builtins.retryNodes] at hn
  | cons x past ih =>
    rw [Builtins.retryNodes, List.mem_append] at hn
    rcases hn with old | new
    · exact ih old
    · split at new
      · obtain rfl := List.mem_singleton.mp new
        exact ⟨_, _, _, rfl, rfl, rfl⟩
      · cases new

/-- The retries of the graph are those that were collected. -/
theorem retries_perm (done : r.finish c b = .ok g) :
    ((g.nodes.filter (·.kind = .retry)).map ExecutionGraphNode.retryView).Perm
      (b.retries.map ExecutionGraphNode.retryView) := by
  have bare := ((finish_perm done).1.filter (·.kind = .retry)).map ExecutionGraphNode.retryView
  rwa [List.filter_map, List.filter_map, List.map_map, List.map_map] at bare

theorem retry_mem_collected (done : r.finish c b = .ok g) {n : ExecutionGraphNode}
    (hn : n ∈ g.nodes) (kind : n.kind = .retry) : ∃ m ∈ b.retries, m.bare = n.bare := by
  have mem := (finish_perm done).1.mem_iff.mp (List.mem_map_of_mem hn)
  obtain ⟨m, hm, same⟩ := List.mem_map.mp mem
  refine ⟨m, List.mem_filter.mpr ⟨hm, ?_⟩, same⟩
  have kinds : m.bare.kind = n.bare.kind := congrArg ExecutionGraphNode.kind same
  exact decide_eq_true (kinds.trans kind)

/-- The edges of the graph from a retry to an attempt. -/
theorem received_perm (h : Linked r c b) (done : r.finish c b = .ok g) {k : Key}
    (retry : k.kind = .retry) :
    (g.edges.filter (fun e => e.source = k.render && e.kind = .receivedBy)).Perm
      ((((c.retryLinks (r.past c)).filterMap (r.followEdge c)).filter (·.source = k.render)).map
        ExecutionGraphEdge.settle) := by
  rw [← h.received k retry]
  have settled := (finish_perm done).2.filter fun e => e.source = k.render && e.kind = .receivedBy
  rwa [List.filter_map] at settled

theorem followEdge_source {l : PendingRetryLink} {e : ExecutionGraphEdge}
    (found : r.followEdge c l = some e) : e.source = l.retryNodeId ∧
      ∃ timestamp received, l.retryTimestamp = some timestamp ∧
        r.attemptAfter c l.taskId timestamp = some (e.target, received) := by
  obtain ⟨m, after, rfl⟩ := Option.map_eq_some_iff.mp found
  obtain ⟨timestamp, at_time, found⟩ := Option.bind_eq_some_iff.mp after
  exact ⟨rfl, timestamp, m.2, at_time, found⟩

/-- No more edges have a source than links do. -/
theorem countP_followEdges_le (links : List PendingRetryLink) (id : String) :
    ((links.filterMap (r.followEdge c)).filter (·.source = id)).length ≤
      (links.map PendingRetryLink.retryNodeId).count id := by
  induction links with
  | nil => exact Nat.le_refl 0
  | cons l links ih =>
    rw [List.map_cons, List.count_cons, List.filterMap_cons]
    cases found : r.followEdge c l with
    | none => exact Nat.le_add_right_of_le ih
    | some e =>
      rw [List.filter_cons, (followEdge_source found).1]
      by_cases here : l.retryNodeId = id
      · simp only [here, decide_true, if_true, List.length_cons, beq_self_eq_true]
        omega
      · simp only [here, decide_false, Bool.false_eq_true, if_false, beq_iff_eq]
        omega

theorem retries_shown_of_new (h : Linked r c b) (done : r.finish c b = .ok g)
    (new : c.RetriesNew (r.past c)) : RetriesShown r c g := by
  have shown := h.shown new
  have ids : ((c.retryNodes (r.past c)).map ExecutionGraphNode.id).Nodup := by
    rw [← shown]
    exact (h.typed.unique.sublist (List.filter_sublist.map _))
  have link_ids : (c.retryLinks (r.past c)).map PendingRetryLink.retryNodeId =
      (c.retryNodes (r.past c)).map ExecutionGraphNode.id := by
    rw [retryLinks_eq, List.map_map]
    rfl
  refine ⟨?_, fun n hn kind => ?_⟩
  · have views := views_retryNodes (c := c) (r.past c)
    rw [← shown, Request.past, List.reverse_reverse] at views
    exact views ▸ retries_perm done
  · obtain ⟨m, hm, same⟩ := retry_mem_collected done hn kind
    rw [shown] at hm
    obtain ⟨t, timestamp, i, task, stamp, named⟩ := retryNodes_fields hm
    have id : n.id = (Key.retry t i).render :=
      (congrArg ExecutionGraphNode.id same).symm.trans named
    have taskId : n.taskId = some t := (congrArg ExecutionGraphNode.taskId same).symm.trans task
    have time : n.timestamp = some timestamp :=
      (congrArg ExecutionGraphNode.timestamp same).symm.trans stamp
    have received := received_perm h done (k := .retry t i) rfl
    constructor
    · rw [id, List.countP_eq_length_filter, received.length_eq, List.length_map]
      refine (countP_followEdges_le _ _).trans ?_
      rw [link_ids]
      exact List.nodup_iff_count_le_one.mp ids _
    · intro e he source kind
      rw [id] at source
      have mem := received.mem_iff.mp (List.mem_filter.mpr ⟨he, by simp [source, kind]⟩)
      obtain ⟨e', he', rfl⟩ := List.mem_map.mp mem
      obtain ⟨l, hl, found⟩ := List.mem_filterMap.mp (List.mem_of_mem_filter he')
      obtain ⟨from_link, timestamp', received, at_time, after⟩ := followEdge_source found
      rw [retryLinks_eq] at hl
      obtain ⟨m', hm', rfl⟩ := List.mem_map.mp hl
      -- The link is that of the node, since no other retry has its id.
      have same_id : m'.id = m.id := from_link.symm.trans (source.trans named.symm)
      obtain rfl := List.inj_on_of_nodup_map ids hm' hm same_id
      refine ⟨t, timestamp, received, taskId, time, ?_⟩
      have owner : m'.link.taskId = t := by rw [ExecutionGraphNode.link, task]; rfl
      obtain rfl : timestamp' = timestamp := Option.some.inj (at_time.symm.trans stamp)
      rw [owner] at after
      exact after

theorem retriesNew_of_shown (h : Linked r c b) (done : r.finish c b = .ok g)
    (shown : RetriesShown r c g) : c.RetriesNew (r.past c) := by
  have lengths := ((retries_perm done).symm.trans shown.nodes).length_eq
  rw [List.length_map, List.length_map, h.count, ← List.countP_eq_length_filter,
    ← List.countP_reverse (l := r.observations c)] at lengths
  exact newRetries_le.2.mp lengths

theorem build_ok (done : r.buildExecutionGraph c = .ok g) :
    ∃ b, r.collect c = .ok b ∧ r.finish c b = .ok g := Failing.bind_ok.mp done

/-- Fewer nodes than retries. -/
theorem not_shown_of_merged (built : r.buildExecutionGraph c = .ok g)
    (merged : c.newRetries (r.past c) ≠
      (r.past c).countP (fun x => c.eventKind x.2 = .retryScheduled)) :
    ¬RetriesShown r c g := by
  intro shown
  obtain ⟨b, collected, done⟩ := build_ok built
  exact merged (newRetries_le.2.mpr (retriesNew_of_shown (collect_linked collected) done shown))

end Shown

theorem retries_shown_iff (r : Request) (c : Builtins) (g : ExecutionGraph)
    (built : r.buildExecutionGraph c = .ok g) :
    RetriesShown r c g ↔ RetriesAfterAttempts r c := by
  obtain ⟨b, collected, done⟩ := build_ok built
  have linked := collect_linked collected
  rw [← retriesNew_past_iff]
  exact ⟨retriesNew_of_shown linked done, retries_shown_of_new linked done⟩

/-- An observation of a message of the task, at a second of a minute. -/
def observedAt (eventType second : String) (more : Item) : Item :=
  [("event_type", .str eventType),
    ("timestamp", .str ("2024-01-01T00:00:" ++ second ++ "+00:00"))] ++ more

/-- The clock of that minute. -/
def minuteBuiltins : Builtins :=
  { plainBuiltins with
    fromisoformat := fun s =>
      match ["00", "01", "02", "03", "04", "05"].findIdx? fun second =>
          s = "2024-01-01T00:00:" ++ second ++ "+00:00" with
      | some i => some ⟨1704067200000000 + 1000000 * i, some 0⟩
      | none => none }

/-- A message, a retry of it and the message again. -/
def retriedOnce : Request where
  topology := .sharedTasksSharedStatus
  taskId := "task-1"
  statusHistories := .empty
  observationHistories := .single "task-1"
    [observedAt "TaskMessageReceived" "01" [],
      observedAt "ConsumerRetryScheduled" "02" [("retry_attempt", .int 1)],
      observedAt "TaskMessageReceived" "03" [("retry_attempt", .int 1)]]
  dlqRecords := .empty
  relatedTaskIds := []

theorem retries_shown_retriedOnce : ∃ g, retriedOnce.buildExecutionGraph minuteBuiltins = .ok g ∧
    (RetriesShown retriedOnce minuteBuiltins g ↔
      RetriesAfterAttempts retriedOnce minuteBuiltins) := by
  have built : (retriedOnce.buildExecutionGraph minuteBuiltins).toBool = true := by decide +kernel
  cases h : retriedOnce.buildExecutionGraph minuteBuiltins with
  | error e => rw [h] at built; cases built
  | ok g => exact ⟨g, rfl, retries_shown_iff _ _ g h⟩

/-- A stage of a workflow that is retried twice. -/
def retriedStage : Request where
  topology := .sharedStatusWorkflow
  taskId := "task-1"
  statusHistories := .empty
  observationHistories := .single "task-1"
    [observedAt "WorkflowMessageReceived" "01" [("message_id", .str "m-1"), ("stage", .str "plan")],
      observedAt "ConsumerRetryScheduled" "02" [("retry_attempt", .int 1)],
      observedAt "WorkflowMessageReceived" "03"
        [("message_id", .str "m-1"), ("stage", .str "plan")],
      observedAt "ConsumerRetryScheduled" "04" [("retry_attempt", .int 2)]]
  dlqRecords := .empty
  relatedTaskIds := []

theorem stage_retries_share_a_node :
    ∃ g, retriedStage.buildExecutionGraph minuteBuiltins = .ok g ∧
      ¬RetriesShown retriedStage minuteBuiltins g := by
  have built : (retriedStage.buildExecutionGraph minuteBuiltins).toBool = true := by
    decide +kernel
  have one_node : minuteBuiltins.newRetries (retriedStage.past minuteBuiltins) ≠
      (retriedStage.past minuteBuiltins).countP
        (fun x => minuteBuiltins.eventKind x.2 = .retryScheduled) := by
    decide +kernel
  cases h : retriedStage.buildExecutionGraph minuteBuiltins with
  | error e => rw [h] at built; cases built
  | ok g =>
    exact ⟨g, rfl, not_shown_of_merged h one_node⟩

end Relayna.Observability.Execution
