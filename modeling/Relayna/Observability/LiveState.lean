import Relayna.Observability.GraphRetries

/-!
# The state of a task's node

`_project_live_state` starts the node of a task with the state of the task's latest status. The pass
over the edges then lets the statuses that were published from the node itself write their own
states over it, in the order of their times, if they are succeeded, failed or retrying.
-/
namespace Relayna.Observability.Execution

open Python Contracts

/-! ## States along the edges -/

namespace NodeState

/-- The states of a status that its source takes over. -/
def isDecisive : NodeState → Bool
  | .succeeded | .failed | .retrying => true
  | _ => false

/-- The states that no status changes. -/
def isSettled : NodeState → Bool
  | .deadLettered | .replayed => true
  | _ => false

/-- The state of a node after a status was published from it. -/
def publish (state published : NodeState) : NodeState :=
  if published.isDecisive && !state.isSettled then published else state

theorem not_isSettled_of_isDecisive {state : NodeState} (h : state.isDecisive = true) :
    state.isSettled = false := by
  cases state <;> first | rfl | cases h

/-- The last decisive status decides, unless the state is settled. -/
theorem foldl_publish (published : List NodeState) (state : NodeState) :
    published.foldl publish state =
      if state.isSettled then state
      else (published.filter isDecisive).getLast?.getD state := by
  induction published generalizing state with
  | nil => simp
  | cons p published ih =>
    rw [List.foldl_cons, ih, publish]
    by_cases settled : state.isSettled = true
    · simp [settled]
    · by_cases decisive : p.isDecisive = true
      · simp [settled, decisive, not_isSettled_of_isDecisive decisive, List.getLast?_cons]
      · simp [settled, decisive]

theorem foldl_publish_eq_iff {published : List NodeState} {state : NodeState} :
    published.foldl publish state = state ↔ state.isSettled = true ∨
      ∀ p, (published.filter isDecisive).getLast? = some p → p = state := by
  rw [foldl_publish]
  by_cases settled : state.isSettled = true
  · simp [settled]
  · cases (published.filter isDecisive).getLast? <;> simp [settled]

end NodeState

section Joined

variable {kind : EdgeKind} {source target : NodeKind}

theorem source_of_linked (h : Scope.linked.edges kind source target = true) :
    source ≠ .statusEvent ∧ source ≠ .dlqRecord := by
  constructor
  all_goals
    rintro rfl
    cases kind <;> simp [Scope.linked, EdgeKind.joins, NodeKind.isTask] at h

theorem target_of_published (h : Scope.linked.edges .publishedStatus source target = true) :
    target = .statusEvent := by
  simp only [Scope.linked, EdgeKind.joins, Bool.or_eq_true, Bool.and_eq_true,
    decide_eq_true_eq] at h
  rcases h with h | h
  · exact h.2
  · exact EdgeKind.noConfusion h.1.1

theorem target_of_deadLettered (h : Scope.linked.edges .deadLetteredTo source target = true) :
    target = .dlqRecord := by
  simp only [Scope.linked, EdgeKind.joins, Bool.or_eq_true, Bool.and_eq_true,
    decide_eq_true_eq] at h
  rcases h with h | h
  · exact h.2
  · exact EdgeKind.noConfusion h.1.1

/-- The edges from the node of a task that say something about its state. -/
theorem kind_of_task (h : Scope.linked.edges kind source target = true)
    (task : source.isTask = true) : kind ≠ .retriedAs ∧ kind ≠ .manualRetryTo := by
  constructor
  all_goals
    rintro rfl
    cases source <;> simp [Scope.linked, EdgeKind.joins, NodeKind.isTask] at h task

end Joined

/-- The state of the node with the id. -/
def stateOf (nodes : List ExecutionGraphNode) (id : String) : Option NodeState :=
  (Keyed.get? ExecutionGraphNode.id id nodes).bind (·.state)

section Edges

variable {nodes : List ExecutionGraphNode} {e : ExecutionGraphEdge} {id : String}

/-- A node that the edge does not touch. -/
theorem get?_propagate (source : id ≠ e.source)
    (target : e.kind = .deadLetteredTo → id ≠ e.target) :
    Keyed.get? ExecutionGraphNode.id id (propagate nodes e) =
      Keyed.get? ExecutionGraphNode.id id nodes := by
  have untouched (id' : String) (other : id ≠ id') (nodes : List ExecutionGraphNode)
      (g : ExecutionGraphNode → ExecutionGraphNode) (keeps : ∀ n, (g n).id = n.id) :
      Keyed.get? ExecutionGraphNode.id id (Keyed.amend ExecutionGraphNode.id id' g nodes) =
        Keyed.get? ExecutionGraphNode.id id nodes := by
    rw [Keyed.get?_amend keeps, if_neg other]
  have kept (p : Prop) [Decidable p] (n m : ExecutionGraphNode) (h : m.id = n.id) :
      (if p then n else m).id = n.id := by
    split
    · rfl
    · exact h
  unfold propagate
  dsimp only
  split
  · rename_i kind
    refine (untouched _ (target kind) _ _ ?_).trans (untouched _ source _ _ ?_)
    · exact fun _ => rfl
    · exact fun _ => rfl
  · exact untouched _ source _ _ fun n => kept _ n _ rfl
  · exact untouched _ source _ _ fun n => kept _ n _ rfl
  · split
    · split
      · split
        · exact untouched _ source _ _ fun n => kept _ n _ rfl
        · rfl
      · rfl
    · rfl
  · rfl

theorem stateOf_propagate (source : id ≠ e.source)
    (target : e.kind = .deadLetteredTo → id ≠ e.target) :
    stateOf (propagate nodes e) id = stateOf nodes id :=
  congrArg (Option.bind · ExecutionGraphNode.state) (get?_propagate source target)

theorem stateOf_publish {state published : NodeState} (kind : e.kind = .publishedStatus)
    (here : stateOf nodes e.source = some state)
    (target : stateOf nodes e.target = some published) :
    stateOf (propagate nodes e) e.source = some (state.publish published) := by
  obtain ⟨s, found, known⟩ := Option.bind_eq_some_iff.mp here
  obtain ⟨p, found', known'⟩ := Option.bind_eq_some_iff.mp target
  unfold propagate
  rw [kind]
  dsimp only
  rw [found']
  dsimp only
  rw [known']
  dsimp only
  have decisive : published ∈ [NodeState.succeeded, .failed, .retrying] ↔
      published.isDecisive = true := by
    cases published <;> simp [NodeState.isDecisive]
  have settled : s.state ∈ [some NodeState.deadLettered, some .replayed] ↔
      state.isSettled = true := by
    rw [known]
    cases state <;> simp [NodeState.isSettled]
  split
  · rename_i passed
    rw [decisive] at passed
    rw [stateOf, Keyed.get?_amend, if_pos rfl, found]
    · show Option.bind (some (if _ then _ else _)) _ = _
      by_cases here : state.isSettled = true
      · rw [if_pos (settled.mpr here)]
        simp [NodeState.publish, here, known]
      · rw [if_neg fun h => here (settled.mp h)]
        simp [NodeState.publish, here, passed, ExecutionGraphNode.setState]
    · intro n
      split <;> rfl
  · rename_i held
    rw [decisive] at held
    rw [here]
    simp [NodeState.publish, held]

/-- What the edges make of the state of a task's node that has no dead letter: `published` tells
the states of the statuses. -/
theorem stateOf_foldl_propagate {edges : List ExecutionGraphEdge} {k : Key} {state : NodeState}
    (published : String → NodeState) (task : k.kind.isTask = true)
    (typed : ∀ e ∈ edges, ∃ k l, e.Between .linked k l)
    (alive : ∀ e ∈ edges, e.kind = .deadLetteredTo → e.source ≠ k.render)
    (targets : ∀ e ∈ edges, e.kind = .publishedStatus →
      stateOf nodes e.target = some (published e.target))
    (here : stateOf nodes k.render = some state) :
    stateOf (edges.foldl propagate nodes) k.render =
      some (((edges.filter fun e => e.kind = .publishedStatus && e.source = k.render).map
        fun e => published e.target).foldl NodeState.publish state) := by
  induction edges generalizing nodes state with
  | nil => exact here
  | cons e edges ih =>
    rw [List.forall_mem_cons] at typed alive targets
    obtain ⟨source_key, target_key, source, target, joined⟩ := typed.1
    -- No edge writes to a status.
    have later : ∀ e' ∈ edges, e'.kind = .publishedStatus →
        stateOf (propagate nodes e) e'.target = some (published e'.target) := by
      intro e' he' kind
      obtain ⟨k', l, -, named, joined'⟩ := typed.2 e' he'
      rw [kind] at joined'
      have status := target_of_published joined'
      rw [← targets.2 e' he' kind]
      refine stateOf_propagate (fun same => ?_) fun dead same => ?_
      · obtain rfl := Key.render_injective (named.symm.trans (same.trans source))
        exact (source_of_linked joined).1 status
      · obtain rfl := Key.render_injective (named.symm.trans (same.trans target))
        rw [dead] at joined
        exact NodeKind.noConfusion (status.symm.trans (target_of_deadLettered joined))
    by_cases from_task : e.source = k.render
    · obtain rfl := Key.render_injective (source.symm.trans from_task)
      by_cases kind : e.kind = .publishedStatus
      · have after := stateOf_publish kind (from_task ▸ here) (targets.1 kind)
        rw [from_task] at after
        rw [List.foldl_cons, ih typed.2 alive.2 later after]
        simp [kind, from_task]
      · have quiet : propagate nodes e = nodes := by
          have others := kind_of_task joined task
          have dead : e.kind ≠ .deadLetteredTo := fun dead => alive.1 dead from_task
          unfold propagate
          cases h : e.kind <;> simp_all
        rw [List.foldl_cons, quiet, ih typed.2 alive.2 targets.2 here]
        simp [kind]
    · have other : stateOf (propagate nodes e) k.render = some state := by
        rw [← here]
        refine stateOf_propagate (Ne.symm from_task) fun dead same => ?_
        obtain rfl := Key.render_injective (same.trans target)
        rw [dead] at joined
        rw [target_of_deadLettered joined] at task
        cases task
      rw [List.foldl_cons, ih typed.2 alive.2 later other]
      simp [from_task]

end Edges

/-! ## The statuses that were collected -/

/-- What the source of a status is read from. -/
structure Build.SameSources (b b' : Build) : Prop where
  stages : b'.stages = b.stages
  attempts : ∀ t, b'.attempts t = b.attempts t
  tasks : b'.taskNodeIds = b.taskNodeIds

namespace Build.SameSources

variable {scope : Scope} {b b' b'' : Build} {n : ExecutionGraphNode} {k : Key}

theorem refl (b : Build) : SameSources b b := ⟨rfl, fun _ => rfl, rfl⟩

theorem trans (h : SameSources b b') (h' : SameSources b' b'') : SameSources b b'' :=
  ⟨h'.stages.trans h.stages, fun t => (h'.attempts t).trans (h.attempts t), h'.tasks.trans h.tasks⟩

theorem statusSource (h : SameSources b b') (topology : RelaynaTopology) (t : String)
    (timestamp : Option String) : Builtins.statusSource topology b' t timestamp =
      Builtins.statusSource topology b t timestamp := by
  simp only [Builtins.statusSource, h.stages, h.attempts, Build.taskNode, h.tasks]

theorem addItem (typed : b.Typed scope) (stands : n.Stands k)
    (other : k.kind ≠ .taskAttempt ∧ k.kind ≠ .stageAttempt) : SameSources b (b.addItem n) := by
  have stages : (b.addNode n).stageAttempts = b.stageAttempts := by
    unfold Build.addNode
    split <;> rfl
  have attempts : (b.addNode n).attemptsByTask = b.attemptsByTask := by
    unfold Build.addNode
    split <;> rfl
  refine ⟨?_, fun t => ?_, ?_⟩
  · show (b.addNode n).stageAttempts.filterMap (b.addNode n).node? = _
    rw [stages]
    refine Build.filterMap_addNode fun mem => ?_
    obtain ⟨s, i, named⟩ := typed.stages _ mem
    obtain rfl := Key.render_injective (stands.1.symm.trans named)
    exact other.2 rfl
  · show ((b.addNode n).attemptsByTask t).filterMap (b.addNode n).node? = _
    rw [attempts]
    refine Build.filterMap_addNode fun mem => ?_
    obtain ⟨i, named⟩ := typed.attempts t _ mem
    obtain rfl := Key.render_injective (stands.1.symm.trans named)
    exact other.1 rfl
  · show (b.addNode n).taskNodeIds = _
    unfold Build.addNode
    split <;> rfl

theorem addEdge (b : Build) (e : ExecutionGraphEdge) : SameSources b (b.addEdge e) :=
  ⟨rfl, fun _ => rfl, rfl⟩

end Build.SameSources

/-- The edge that a status is published with. -/
def Builtins.publishedEdge (c : Builtins) (topology : RelaynaTopology) (b : Build)
    (e : String × Nat × Item) : ExecutionGraphEdge where
  source := (Builtins.statusSource topology b e.1 (some (c.eventTimestamp e.2.2))).toOption.getD ""
  target := statusId e.1 e.2.1
  kind := .publishedStatus
  timestamp := some (c.eventTimestamp e.2.2)

def Build.publishedEdges (b : Build) : List ExecutionGraphEdge :=
  b.edges.filter (·.kind = .publishedStatus)

section Collected

variable {r : Request} {c : Builtins} {b b' : Build}

/-- A status adds its node, its edge and perhaps the edge of a manual retry. -/
theorem addStatus_drawn {topology : RelaynaTopology} {e : String × Nat × Item} {scope : Scope}
    (typed : b.Typed scope) (new : statusId e.1 e.2.1 ∉ b.ids)
    (ended : c.addStatus topology b e = .ok b') :
    b.SameSources b' ∧ b'.publishedEdges = b.publishedEdges ++ [c.publishedEdge topology b e] ∧
      ∃ entries, b'.nodes = b.nodes ++ [c.statusNode e.1 e.2.1 e.2.2 entries] := by
  obtain ⟨entries, -, ended⟩ := Failing.bind_ok.mp ended
  obtain ⟨source, found, rfl⟩ := Failing.map_ok.mp ended
  have stands := stands_statusNode c e.1 e.2.1 e.2.2 entries
  have added := Build.SameSources.addItem typed stands ⟨NodeKind.noConfusion, NodeKind.noConfusion⟩
  rw [added.statusSource] at found
  have edge : c.publishedEdge topology b e =
      { source := source, target := statusId e.1 e.2.1, kind := .publishedStatus,
        timestamp := some (c.eventTimestamp e.2.2) } := by
    have source : (Builtins.statusSource topology b e.1
        (some (c.eventTimestamp e.2.2))).toOption.getD "" = source := by
      rw [show Builtins.statusSource topology b e.1 (some (c.eventTimestamp e.2.2)) = _ from found]
      rfl
    rw [Builtins.publishedEdge, source]
  have linked (b : Build) (timestamp : Option String) :
      b.SameSources (c.linkManualRetry b e.1 e.2.2 timestamp) ∧
        (c.linkManualRetry b e.1 e.2.2 timestamp).publishedEdges = b.publishedEdges ∧
        (c.linkManualRetry b e.1 e.2.2 timestamp).nodes = b.nodes := by
    unfold Builtins.linkManualRetry
    split
    · dsimp only
      split
      · refine ⟨.addEdge _ _, ?_, rfl⟩
        simp [Build.publishedEdges, Build.addEdge]
      · exact ⟨.refl _, rfl, rfl⟩
    · exact ⟨.refl _, rfl, rfl⟩
  obtain ⟨sources, edges, nodes⟩ := linked
    ((b.addItem (c.statusNode e.1 e.2.1 e.2.2 entries)).addEdge
    { source := source, target := statusId e.1 e.2.1, kind := .publishedStatus,
      timestamp := some (c.eventTimestamp e.2.2) }) (some (c.eventTimestamp e.2.2))
  refine ⟨added.trans ((Build.SameSources.addEdge _ _).trans sources), ?_, entries, ?_⟩
  · refine edges.trans ?_
    rw [edge, Build.addItem, Build.addNode_new new]
    simp [Build.publishedEdges, Build.addEdge]
  · refine nodes.trans ?_
    rw [Build.addItem, Build.addNode_new new]
    rfl

/-- The nodes and the edges of the statuses in `done`. -/
structure StatusesDrawn (r : Request) (c : Builtins) (b₁ : Build)
    (done : List (String × Nat × Item))
    (b : Build) : Prop where
  sources : b₁.SameSources b
  edges : b.publishedEdges = done.map (c.publishedEdge r.topology b₁)
  nodes : ∀ e ∈ done, ∃ entries,
    b.node? (statusId e.1 e.2.1) = some (c.statusNode e.1 e.2.1 e.2.2 entries)

theorem statuses_drawn {b₁ : Build} (typed : b₁.Typed .observed)
    (h : (r.statuses c).foldlM (c.addStatus r.topology) b₁ = .ok b) :
    StatusesDrawn r c b₁ (r.statuses c) b := by
  -- A status finds its id free, since no other one has its task and its number.
  have kept := Failing.foldlM_ok
    (I := fun done b => (done.map fun e => (e.1, e.2.1)).Nodup →
      b.Typed .published ∧ StatusesDrawn r c b₁ done b ∧
      ∀ t i, statusId t i ∈ b.ids → (t, i) ∈ done.map fun e => (e.1, e.2.1))
    (fun {done b e b'} kept ended distinct => by
      rw [List.map_append, List.nodup_append] at distinct
      obtain ⟨before, -, apart⟩ := distinct
      obtain ⟨typed, drawn, known⟩ := kept before
      have new : statusId e.1 e.2.1 ∉ b.ids := fun old =>
        apart _ (known _ _ old) _ (List.mem_singleton_self _) rfl
      obtain ⟨sources, edges, entries, nodes⟩ := addStatus_drawn typed new ended
      have edge : c.publishedEdge r.topology b e = c.publishedEdge r.topology b₁ e := by
        rw [Builtins.publishedEdge, drawn.sources.statusSource, Builtins.publishedEdge]
      refine ⟨typed.addStatus ended, ⟨drawn.sources.trans sources, ?_, fun x hx => ?_⟩,
        fun t i mem => ?_⟩
      · rw [edges, drawn.edges, edge, List.map_append, List.map_singleton]
      · rw [Build.node?, nodes, Keyed.get?_append]
        rcases List.mem_append.mp hx with old | here
        · obtain ⟨entries', found⟩ := drawn.nodes x old
          rw [Build.node?] at found
          exact ⟨entries', by rw [found]; rfl⟩
        · obtain rfl := List.mem_singleton.mp here
          refine ⟨entries, ?_⟩
          rw [Keyed.get?_eq_none.mpr new]
          simp [Keyed.get?, Builtins.statusNode]
      · rw [Build.ids, nodes, List.map_append, List.mem_append] at mem
        rw [List.map_append, List.mem_append]
        rcases mem with old | here
        · exact Or.inl (known t i old)
        · refine Or.inr (List.mem_singleton.mpr ?_)
          obtain ⟨task, number⟩ :=
            Key.status.inj (Key.render_injective (List.mem_singleton.mp here))
          rw [task, number])
    (fun _ => by
      refine ⟨typed.publish, ⟨.refl b₁, ?_, List.forall_mem_nil _⟩, fun t i mem => ?_⟩
      · rw [Build.publishedEdges, List.map_nil, List.filter_eq_nil_iff]
        intro e he kind
        obtain ⟨k, l, -, -, joined⟩ := typed.edges e he
        rw [of_decide_eq_true kind] at joined
        simp [Scope.observed] at joined
      · obtain ⟨n, hn, named⟩ := List.mem_map.mp mem
        have stands := typed.stands (k := .status t i) hn named
        have kind := (typed.nodes n hn).1
        rw [stands.2.1] at kind
        cases kind) h
  exact (kept statuses_nodup).2.1

theorem linkRetries_drawn {done : List (String × Nat × Item)} {b₁ : Build}
    (h : StatusesDrawn r c b₁ done b) (links : List PendingRetryLink) :
    StatusesDrawn r c b₁ done (links.foldl Builtins.linkRetry b) := by
  induction links generalizing b with
  | nil => exact h
  | cons l links ih =>
    refine ih ?_
    rw [linkRetry_eq]
    cases found : b.linkEdge l with
    | none => exact h
    | some e =>
      refine ⟨h.sources.trans (.addEdge b e), ?_, h.nodes⟩
      obtain ⟨next, -, rfl⟩ := Option.map_eq_some_iff.mp found
      rw [← h.edges]
      simp [Build.publishedEdges, Build.addEdge]

theorem addRecord_drawn {done : List (String × Nat × Item)} {b₁ : Build} {scope : Scope}
    {e : String × Nat × Item} (h : StatusesDrawn r c b₁ done b) (typed : b.Typed scope)
    (ended : c.addRecord b e = .ok b') : StatusesDrawn r c b₁ done b' := by
  by_cases old : (c.recordNode e.1 e.2.1 e.2.2).id ∈ b.ids
  · have kept : c.addRecord b e = .ok { b with
        itemNodes := b.itemNodes ++ [(c.recordNode e.1 e.2.1 e.2.2).id] } := if_pos old
    obtain rfl := Except.ok.inj (kept.symm.trans ended)
    exact ⟨⟨h.sources.stages, h.sources.attempts, h.sources.tasks⟩, h.edges, h.nodes⟩
  · rw [addRecord_new old] at ended
    obtain ⟨source, -, rfl⟩ := Failing.map_ok.mp ended
    have stands := stands_recordNode c e.1 e.2.1 e.2.2
    have added := Build.SameSources.addItem typed stands
      ⟨NodeKind.noConfusion, NodeKind.noConfusion⟩
    refine ⟨h.sources.trans (added.trans (.addEdge _ _)), ?_, fun x hx => ?_⟩
    · rw [← h.edges, Build.addItem, Build.addNode_new old]
      simp [Build.publishedEdges, Build.addEdge]
    · obtain ⟨entries, found⟩ := h.nodes x hx
      refine ⟨entries, ?_⟩
      rw [← found]
      refine Build.node?_addNode fun same => ?_
      have keys : (Key.status x.1 x.2.1).render = (Key.dlq (e.1 ++ ":record") e.2.1).render :=
        same.trans stands.1
      cases Key.render_injective keys

/-- The statuses of the collected graph; their sources are read from the graph as it is in the
end, where the attempts are still those of the observations. -/
theorem collect_drawn (h : r.collect c = .ok b) : StatusesDrawn r c b (r.statuses c) b ∧
    b.taskNodeIds = r.start.taskNodeIds ∧
      ∀ t, b.attempts t = [] ↔ c.attemptCount (r.past c) t = 0 := by
  obtain ⟨b₁, b₂, observed, published, recorded⟩ := collect_ok h
  have tracked := observations_tracked observed
  have typed := tracked.typed
  have linked := links_typed (statuses_typed typed.publish published)
  have kept := Failing.foldlM_ok
    (I := fun _ b => b.Typed .linked ∧ StatusesDrawn r c b₁ (r.statuses c) b)
    (fun kept ended => ⟨kept.1.addRecord ended, addRecord_drawn kept.2 kept.1 ended⟩)
    ⟨linked, linkRetries_drawn (statuses_drawn typed published) _⟩ recorded
  obtain ⟨-, sources, edges, nodes⟩ := kept
  refine ⟨⟨.refl b, edges.trans ?_, nodes⟩, sources.tasks.trans tracked.tasks, fun t => ?_⟩
  · refine List.map_congr_left fun e _ => ?_
    rw [Builtins.publishedEdge, Builtins.publishedEdge, sources.statusSource]
  · rw [sources.attempts, tracked.attempts_eq_nil]

end Collected

/-! ## The statuses of a task -/

namespace Request

variable (r : Request) (c : Builtins)

def sortedStatuses (taskId : String) : List Item :=
  c.sortByTimestamp (r.statusHistories.get taskId)

/-- The status is published from the node of its task: no attempt is there to publish it from. -/
def fromTask (b : Build) (taskId : String) (event : Item) : Bool :=
  if r.topology = .sharedStatusWorkflow then
    b.stages.all fun attempt => c.eventTimestamp event < attempt.timestamp.getD ""
  else c.attemptCount (r.past c) taskId = 0

end Request

/-- The state that the node of the status shows. -/
def Builtins.publishedState (c : Builtins) (event : Item) : NodeState :=
  c.stateFromStatus (strip (c.textOr (event.lookup "status") "status"))

section Own

variable {r : Request} {c : Builtins} {b : Build} {t : String}

theorem state_statusNode (t : String) (i : Nat) (event : Item) (entries : List (Value × Value))
    (latest : String → Option Item) :
    (c.initialNodeState (c.statusNode t i event entries) latest).1 = c.publishedState event := by
  unfold Builtins.initialNodeState Builtins.publishedState
  have status : (c.statusNode t i event entries).annotated "status" =
      some ((event.lookup "status").getD .none) := rfl
  have label : (c.statusNode t i event entries).label.getD "" =
      c.textOr (event.lookup "status") "status" := rfl
  show c.stateFromStatus (strip (c.textOr ((c.statusNode t i event entries).annotated "status")
    ((c.statusNode t i event entries).label.getD ""))) = _
  rw [status, label]
  cases event.lookup "status" with
  | none => rfl
  | some v =>
    simp only [Option.getD_some, Builtins.textOr]
    split <;> rfl

theorem taskNodeId_ne_empty (root t : String) : taskNodeId root t ≠ "" := by
  unfold taskNodeId
  intro empty
  have size := congrArg String.length empty
  split at size <;> simp [String.length_append] at size

/-- The attempt that a status is published from, if there is one. -/
def statusAttempt (topology : RelaynaTopology) (b : Build) (taskId : String)
    (timestamp : Option String) : Option ExecutionGraphNode :=
  if topology = .sharedStatusWorkflow then latestStageAttempt b.stages none timestamp
  else latestAttempt (b.attempts taskId) timestamp

theorem statusSource_eq (topology : RelaynaTopology) (b : Build) (taskId : String)
    (timestamp : Option String) : Builtins.statusSource topology b taskId timestamp =
      (statusAttempt topology b taskId timestamp).elim (b.taskNode taskId) (.ok ·.id) := by
  unfold Builtins.statusSource statusAttempt
  dsimp only
  generalize (if topology = .sharedStatusWorkflow then latestStageAttempt b.stages none timestamp
    else latestAttempt (b.attempts taskId) timestamp) = source
  cases source <;> rfl

/-- Where a status of a task with a node comes from. -/
theorem source_eq_iff (h : r.collect c = .ok b) (listed : r.listed t = true)
    (e : String × Nat × Item) :
    (c.publishedEdge r.topology b e).source = taskNodeId r.taskId t ↔
      e.1 = t ∧ r.fromTask c b t e.2.2 = true := by
  obtain ⟨-, tasks, attempted⟩ := collect_drawn h
  have typed := collect_typed h
  have start := Described.start r c
  have node (t' : String) : b.taskNodeIds.lookup t' =
      if r.listed t' then some (taskNodeId r.taskId t') else none := by
    rw [tasks, start.tasks, taskKey_render]
  have named : taskNodeId r.taskId t = (r.taskKey t).render := (taskKey_render r t).symm
  have task : (r.taskKey t).kind.isTask = true := by
    unfold Request.taskKey
    split <;> rfl
  let source := statusAttempt r.topology b e.1 (some (c.eventTimestamp e.2.2))
  have from_task : r.fromTask c b e.1 e.2.2 = true ↔ source = none := by
    simp only [Request.fromTask, source, statusAttempt]
    split
    · rw [latestStageAttempt, List.getLast?_eq_none_iff, List.filter_eq_nil_iff, List.all_eq_true]
      refine forall₂_congr fun a _ => ?_
      simp [not_le]
    · rw [latestAttempt_eq_none, attempted, decide_eq_true_eq]
  have edge : (c.publishedEdge r.topology b e).source =
      source.elim ((b.taskNode e.1).toOption.getD "") ExecutionGraphNode.id := by
    rw [Builtins.publishedEdge, statusSource_eq]
    show (source.elim (b.taskNode e.1) (Except.ok ·.id)).toOption.getD "" = _
    cases source <;> rfl
  rw [edge]
  cases found : source with
  | some attempt =>
    have other : attempt.id ≠ taskNodeId r.taskId t := by
      intro same
      have attempt_key : ∃ k : Key, k.kind.isTask = false ∧ attempt.id = k.render := by
        simp only [source, statusAttempt] at found
        split at found
        · obtain ⟨s, i, named⟩ := typed.stage (mem_of_latestStageAttempt found)
          exact ⟨.stage s i, rfl, named⟩
        · obtain ⟨i, named⟩ := typed.attempt (mem_of_latestAttempt found)
          exact ⟨.attempt e.1 i, rfl, named⟩
      obtain ⟨k, kind, id⟩ := attempt_key
      obtain rfl := Key.render_injective (id.symm.trans (same.trans named))
      rw [task] at kind
      cases kind
    refine iff_of_false other ?_
    rintro ⟨rfl, own⟩
    rw [from_task.mp own] at found
    cases found
  | none =>
    have own := from_task.mpr found
    show (b.taskNode e.1).toOption.getD "" = _ ↔ _
    by_cases same : e.1 = t
    · subst same
      simp only [Build.taskNode, node, listed, if_true, own, and_self, iff_true]
      rfl
    · refine iff_of_false ?_ fun h => same h.1
      rw [Build.taskNode, node]
      by_cases known : r.listed e.1 = true
      · rw [if_pos known]
        exact fun id => same (taskNodeId_injective id)
      · rw [if_neg known]
        exact (taskNodeId_ne_empty r.taskId t).symm

/-! ### Their order -/

theorem pairwise_sortedBy {α : Type} (key : α → List String) (items : List α) :
    (sortedBy key items).Pairwise fun a b => key a ≤ key b := by
  have total : Std.Total fun a b : α => key a ≤ key b := ⟨fun a b => le_total (key a) (key b)⟩
  have trans : IsTrans α fun a b => key a ≤ key b := ⟨fun _ _ _ => le_trans⟩
  exact List.pairwise_insertionSort _ items

theorem head_le_of_cons_le {a b : String} {l m : List String} (h : a :: l ≤ b :: m) : a ≤ b := by
  by_contra later
  exact absurd h (not_le.mpr (List.cons_lt_cons_iff.mpr (Or.inl (not_le.mp later))))

theorem pairwise_edgesInOrder (b : Build) : b.edgesInOrder.Pairwise fun e f =>
    e.timestamp.getD "" ≤ f.timestamp.getD "" := by
  refine (pairwise_sortedBy _ b.edges).imp fun {e f} before => ?_
  exact head_le_of_cons_le before

theorem pairwise_sortByTimestamp (items : List Item) : (c.sortByTimestamp items).Pairwise fun x y =>
    c.eventTimestamp x ≤ c.eventTimestamp y := by
  refine (pairwise_sortedBy _ items).imp fun {x y} before => ?_
  exact head_le_of_cons_le before

theorem flatMap_of_once {α β : Type} {l : List α} {f : α → List β} {a : α} (unique : l.Nodup)
    (mem : a ∈ l) (others : ∀ x ∈ l, x ≠ a → f x = []) : l.flatMap f = f a := by
  obtain ⟨u, v, rfl⟩ := List.append_of_mem mem
  rw [List.nodup_append, List.nodup_cons] at unique
  have before : u.flatMap f = [] := List.flatMap_eq_nil_iff.mpr fun x hx =>
    others x (List.mem_append_left _ hx) (unique.2.2 x hx a List.mem_cons_self)
  have after : v.flatMap f = [] := List.flatMap_eq_nil_iff.mpr fun x hx =>
    others x (List.mem_append_right _ (List.mem_cons_of_mem _ hx))
      fun same => unique.2.1.1 (same ▸ hx)
  rw [List.flatMap_append, List.flatMap_cons, before, after, List.nil_append, List.append_nil]

/-- The statuses that were published from the node of the task, in the order of their times. -/
def Request.ownStatuses (r : Request) (c : Builtins) (b : Build) (taskId : String) : List Item :=
  (r.sortedStatuses c taskId).filter (r.fromTask c b taskId)

/-- The same with their numbers. -/
def Request.ownEntries (r : Request) (c : Builtins) (b : Build) (taskId : String) :
    List (String × Nat × Item) :=
  (r.statuses c).filter fun e => e.1 = taskId && r.fromTask c b taskId e.2.2

theorem events_ownEntries (listed : r.listed t = true) :
    (r.ownEntries c b t).map (·.2.2) = r.ownStatuses c b t := by
  have tasks : r.statusTasks.Nodup :=
    (List.perm_insertionSort _ _).nodup_iff.mpr (List.nodup_dedup _)
  have mem : t ∈ r.statusTasks := by
    refine (List.mem_insertionSort _).mpr (List.mem_dedup.mpr ?_)
    rcases List.mem_cons.mp (of_decide_eq_true listed) with rfl | related
    · exact List.mem_cons_self
    · exact List.mem_cons_of_mem _ (List.mem_append_left _ (List.mem_append_left _ related))
  have here (t' : String) :
      (Request.numbered t' (c.sortByTimestamp (r.statusHistories.get t'))).filter
      (fun e => e.1 = t && r.fromTask c b t e.2.2) =
        if t' = t then (Request.numbered t (r.sortedStatuses c t)).filter (r.fromTask c b t ·.2.2)
        else [] := by
    split
    · rename_i same
      subst same
      refine List.filter_congr fun e he => ?_
      obtain ⟨x, -, rfl⟩ := List.mem_map.mp he
      simp
    · rename_i other
      rw [List.filter_eq_nil_iff]
      intro e he
      obtain ⟨x, -, rfl⟩ := List.mem_map.mp he
      simp [other]
  rw [Request.ownEntries, Request.statuses, List.filter_flatMap]
  simp only [here]
  rw [flatMap_of_once tasks mem fun x _ other => if_neg other, if_pos rfl]
  have events : (Request.numbered t (r.sortedStatuses c t)).map (·.2.2) = r.sortedStatuses c t := by
    rw [Request.numbered, List.map_map]
    exact List.zipIdx_map_fst 1 _
  rw [Request.ownStatuses, ← events, List.filter_map, events]
  rfl

/-- The edges from the node of the task to its statuses, in the order of the pass. -/
theorem own_edgesInOrder (h : r.collect c = .ok b) (listed : r.listed t = true)
    (distinct : ((r.statusHistories.get t).map c.eventTimestamp).Nodup) :
    (b.edgesInOrder.filter fun e =>
      e.kind = .publishedStatus && e.source = taskNodeId r.taskId t) =
        (r.ownEntries c b t).map (c.publishedEdge r.topology b) := by
  have drawn := (collect_drawn h).1
  have own : (b.edges.filter fun e =>
      e.kind = .publishedStatus && e.source = taskNodeId r.taskId t) =
        (r.ownEntries c b t).map (c.publishedEdge r.topology b) := by
    have split : (b.edges.filter fun e =>
        e.kind = .publishedStatus && e.source = taskNodeId r.taskId t) =
          b.publishedEdges.filter (·.source = taskNodeId r.taskId t) := by
      rw [Build.publishedEdges, List.filter_filter]
      exact List.filter_congr fun e _ => Bool.and_comm _ _
    rw [split, drawn.edges, List.filter_map, Request.ownEntries]
    refine congrArg (List.map _) (List.filter_congr fun e _ => ?_)
    rw [Function.comp_apply, Bool.eq_iff_iff, decide_eq_true_eq, source_eq_iff h listed e,
      Bool.and_eq_true, decide_eq_true_eq]
  have events := events_ownEntries (b := b) (c := c) listed
  have sorted : (r.ownStatuses c b t).Sublist (r.sortedStatuses c t) := List.filter_sublist
  have times : ((r.ownStatuses c b t).map c.eventTimestamp).Nodup := by
    refine List.Nodup.sublist (sorted.map _) ?_
    exact ((List.perm_insertionSort _ _).map _).nodup_iff.mpr distinct
  rw [← events, List.map_map] at times
  have perm := (List.perm_insertionSort (fun e f : ExecutionGraphEdge =>
    [e.timestamp.getD "", e.kind.name, e.source, e.target] ≤
      [f.timestamp.getD "", f.kind.name, f.source, f.target]) b.edges).filter fun e =>
        e.kind = .publishedStatus && e.source = taskNodeId r.taskId t
  rw [own] at perm
  have first := (pairwise_edgesInOrder b).sublist (List.filter_sublist (p := fun e =>
    e.kind = .publishedStatus && e.source = taskNodeId r.taskId t))
  refine perm.eq_of_pairwise (fun e f he hf before after => ?_) first ?_
  · -- Two of them at one time are one and the same.
    obtain ⟨x, hx, rfl⟩ := List.mem_map.mp (perm.mem_iff.mp he)
    obtain ⟨y, hy, rfl⟩ := List.mem_map.mp hf
    rw [List.inj_on_of_nodup_map times hx hy (le_antisymm before after)]
  · have ordered := (pairwise_sortByTimestamp (c := c) (r.statusHistories.get t)).sublist sorted
    rw [← events, List.pairwise_map] at ordered
    exact List.pairwise_map.mpr ordered

/-! ## The node of a task -/

variable {g : ExecutionGraph} {n : ExecutionGraphNode} {last : Item}

/-- A node before the pass over the edges. -/
def Builtins.started (c : Builtins) (latest : String → Option Item) (node : ExecutionGraphNode) :
    ExecutionGraphNode :=
  let (state, reason, updatedAt) := c.initialNodeState node latest
  node.setState state (some reason) updatedAt

/-- The state that a node starts with, found by the id of the node. -/
theorem stateOf_started (h : b.Typed .linked) (latest : String → Option Item) {id : String}
    {m : ExecutionGraphNode} (found : b.node? id = some m) :
    stateOf (b.nodesInOrder.map (c.started latest)) id =
      some (c.initialNodeState m latest).1 := by
  have keeps (n : ExecutionGraphNode) : (c.started latest n).id = n.id := rfl
  have sorted : b.nodesInOrder.Perm b.nodes := List.perm_insertionSort _ _
  have unique : (b.nodesInOrder.map ExecutionGraphNode.id).Nodup :=
    (sorted.map _).nodup_iff.mpr h.unique
  rw [stateOf, Keyed.get?_map keeps, Keyed.get?_of_perm unique sorted]
  rw [Build.node?] at found
  rw [found]
  rfl

/-- The node of a task starts with the state of its latest status. -/
theorem state_task (h : r.collect c = .ok b) (latest : r.latestStatus c t = some last)
    {m : ExecutionGraphNode} (stands : m.Stands (r.taskKey t)) :
    (c.initialNodeState m (r.latestStatus c)).1 =
      c.stateFromStatus (c.text.stripped (last.lookup "status")) := by
  have owner : (r.taskKey t).owner = some t := by
    unfold Request.taskKey
    split <;> rfl
  have kind : m.kind = .task ∨ m.kind = .aggregationChild := by
    rw [stands.2.1]
    unfold Request.taskKey
    split
    · exact Or.inl rfl
    · exact Or.inr rfl
  have status : m.taskId.bind (r.latestStatus c) = some last := by
    rw [stands.2.2 t owner]
    exact latest
  unfold Builtins.initialNodeState
  rcases kind with kind | kind
  all_goals
    rw [kind]
    dsimp only
    rw [status]

theorem state_taskNode (h : r.collect c = .ok b) (done : r.finish c b = .ok g)
    (listed : r.listed t = true)
    (distinct : ((r.statusHistories.get t).map c.eventTimestamp).Nodup)
    (latest : r.latestStatus c t = some last) (hn : n ∈ g.nodes)
    (named : n.id = taskNodeId r.taskId t)
    (alive : ∀ e ∈ g.edges, e.kind = .deadLetteredTo → e.source ≠ n.id) :
    n.state = some (((r.ownStatuses c b t).map c.publishedState).foldl NodeState.publish
      (c.stateFromStatus (c.text.stripped (last.lookup "status")))) := by
  have typed := collect_typed h
  have drawn := (collect_drawn h).1
  obtain ⟨nodes, edges, -⟩ := finish_ok done
  have bare := (finish_perm done).1
  have key : (r.taskKey t).render = n.id := (taskKey_render r t).trans named.symm
  have task : (r.taskKey t).kind.isTask = true := by
    unfold Request.taskKey
    split <;> rfl
  -- The node is read from the graph by its id.
  have read : stateOf g.nodes n.id = n.state := by
    have ids := bare.map ExecutionGraphNode.id
    rw [List.map_map, List.map_map] at ids
    have unique : (g.nodes.map ExecutionGraphNode.id).Nodup := ids.nodup_iff.mpr typed.unique
    rw [stateOf, Keyed.get?_of_mem unique hn]
    rfl
  obtain ⟨m, hm, same⟩ := List.mem_map.mp (bare.mem_iff.mp (List.mem_map_of_mem hn))
  have id : m.id = (r.taskKey t).render := (congrArg ExecutionGraphNode.id same).trans key.symm
  have found : b.node? (r.taskKey t).render = some m := id ▸ Keyed.get?_of_mem typed.unique hm
  have start := state_task h latest (typed.stands hm id)
  let state (id : String) : NodeState :=
    ((b.node? id).map fun m => (c.initialNodeState m (r.latestStatus c)).1).getD .unknown
  have mem_edges {e : ExecutionGraphEdge} (he : e ∈ b.edgesInOrder) : e ∈ b.edges :=
    (List.mem_insertionSort _).mp he
  have edge_typed : ∀ e ∈ b.edgesInOrder.map ExecutionGraphEdge.settle,
      ∃ k l, e.Between .linked k l := by
    intro e he
    obtain ⟨e', he', rfl⟩ := List.mem_map.mp he
    exact typed.edges e' (mem_edges he')
  have targets : ∀ e ∈ b.edgesInOrder.map ExecutionGraphEdge.settle, e.kind = .publishedStatus →
      stateOf (b.nodesInOrder.map (c.started (r.latestStatus c))) e.target =
        some (state e.target) := by
    intro e he kind
    obtain ⟨e', he', rfl⟩ := List.mem_map.mp he
    have published : e' ∈ b.publishedEdges :=
      List.mem_filter.mpr ⟨mem_edges he', decide_eq_true kind⟩
    rw [drawn.edges] at published
    obtain ⟨x, hx, rfl⟩ := List.mem_map.mp published
    obtain ⟨entries, found⟩ := drawn.nodes x hx
    show stateOf _ (statusId x.1 x.2.1) = some (state (statusId x.1 x.2.1))
    rw [stateOf_started typed (r.latestStatus c) found]
    simp only [state, found, Option.map_some, Option.getD_some]
  rw [edges, ← key] at alive
  have after := stateOf_foldl_propagate state task edge_typed alive targets
    (stateOf_started typed (r.latestStatus c) found)
  rw [start, key] at after
  have passed : stateOf g.nodes n.id = _ := (congrArg (stateOf · n.id) nodes).trans after
  rw [← read, passed]
  have own := own_edgesInOrder h listed distinct
  have states : (((b.edgesInOrder.map ExecutionGraphEdge.settle).filter fun e =>
      e.kind = .publishedStatus && e.source = n.id).map fun e => state e.target) =
        (r.ownStatuses c b t).map c.publishedState := by
    rw [named, List.filter_map, List.map_map]
    show (List.map (fun e => state e.target) (b.edgesInOrder.filter fun e =>
      e.kind = .publishedStatus && e.source = taskNodeId r.taskId t)) = _
    rw [own, List.map_map, ← events_ownEntries listed, List.map_map]
    refine List.map_congr_left fun x hx => ?_
    obtain ⟨entries, found⟩ := drawn.nodes x (List.mem_of_mem_filter hx)
    show state (statusId x.1 x.2.1) = c.publishedState x.2.2
    simp only [state, found, Option.map_some, Option.getD_some]
    exact state_statusNode _ _ _ _ _
  rw [states]

theorem stateFromStatus_ne_replayed (c : Builtins) (status : String) :
    c.stateFromStatus status ≠ .replayed := by
  unfold Builtins.stateFromStatus
  dsimp only
  repeat' split
  all_goals exact NodeState.noConfusion

/-- The latest status is the last one in the order of the texts, when these tell the times. -/
theorem latestStatus_eq {instant : String → Int}
    (distinct : ((r.statusHistories.get t).map c.eventTimestamp).Nodup)
    (format : ∀ x ∈ r.statusHistories.get t, ∀ y ∈ r.statusHistories.get t,
      c.eventTimestamp x < c.eventTimestamp y →
        instant (c.eventTimestamp x) < instant (c.eventTimestamp y))
    (mem : last ∈ r.statusHistories.get t) (after : ∀ x ∈ r.statusHistories.get t,
      instant (c.eventTimestamp x) ≤ instant (c.eventTimestamp last)) :
    r.latestStatus c t = some last := by
  have sorted : (r.sortedStatuses c t).Perm (r.statusHistories.get t) :=
    List.perm_insertionSort _ _
  have ordered := pairwise_sortByTimestamp (c := c) (r.statusHistories.get t)
  show (r.sortedStatuses c t).getLast? = some last
  cases final : (r.sortedStatuses c t).getLast? with
  | none =>
    rw [List.getLast?_eq_none_iff] at final
    rw [← sorted.mem_iff, final] at mem
    cases mem
  | some x =>
    have hx : x ∈ r.statusHistories.get t := sorted.mem_iff.mp (List.mem_of_getLast? final)
    obtain ⟨before, shape⟩ := List.getLast?_eq_some_iff.mp final
    have latest : c.eventTimestamp last ≤ c.eventTimestamp x := by
      have ordered : (r.sortedStatuses c t).Pairwise fun x y =>
        c.eventTimestamp x ≤ c.eventTimestamp y := ordered
      rw [← sorted.mem_iff, shape, List.mem_append] at mem
      rw [shape, List.pairwise_append] at ordered
      rcases mem with earlier | here
      · exact ordered.2.2 last earlier x (List.mem_singleton_self x)
      · rw [List.mem_singleton.mp here]
    have same : c.eventTimestamp last = c.eventTimestamp x := by
      by_contra differ
      have later := format last mem x hx (lt_of_le_of_ne latest differ)
      exact absurd (after x hx) (not_le.mpr later)
    rw [List.inj_on_of_nodup_map distinct mem hx same]

/-- The last of the statuses that were published from the node of the task and are succeeded,
failed or retrying, if there is one, has the state of the latest status. -/
def LatestDecides (r : Request) (c : Builtins) (b : Build) (taskId : String) (last : Item) : Prop :=
  c.stateFromStatus (c.text.stripped (last.lookup "status")) = .deadLettered ∨
    ∀ event, ((r.ownStatuses c b taskId).filter fun event =>
        (c.publishedState event).isDecisive).getLast? = some event →
      c.publishedState event = c.stateFromStatus (c.text.stripped (last.lookup "status"))

theorem foldl_publish_ownStatuses {state : NodeState} (fresh : state ≠ .replayed) :
    ((r.ownStatuses c b t).map c.publishedState).foldl NodeState.publish state = state ↔
      state = .deadLettered ∨ ∀ event, ((r.ownStatuses c b t).filter fun event =>
        (c.publishedState event).isDecisive).getLast? = some event →
          c.publishedState event = state := by
  have settled : state.isSettled = true ↔ state = .deadLettered := by
    cases state <;> simp [NodeState.isSettled] at fresh ⊢
  rw [NodeState.foldl_publish_eq_iff, settled, List.filter_map, List.getLast?_map]
  refine or_congr_right ⟨fun all event found => ?_, fun all p found => ?_⟩
  · exact all _ (Option.map_eq_some_iff.mpr ⟨event, found, rfl⟩)
  · obtain ⟨event, shown, rfl⟩ := Option.map_eq_some_iff.mp found
    exact all event shown

end Own

/-- The node of a task that has no dead letter shows the state of the latest status exactly when
that status is the one that decides. -/
theorem task_shows_latest_iff (r : Request) (c : Builtins) (b : Build) (g : ExecutionGraph)
    (n : ExecutionGraphNode) (t : String) (last : Item) (instant : String → Int)
    (collected : r.collect c = .ok b) (done : r.finish c b = .ok g) (listed : r.listed t = true)
    (distinct : ((r.statusHistories.get t).map c.eventTimestamp).Nodup)
    (format : ∀ x ∈ r.statusHistories.get t, ∀ y ∈ r.statusHistories.get t,
      c.eventTimestamp x < c.eventTimestamp y →
        instant (c.eventTimestamp x) < instant (c.eventTimestamp y))
    (mem : last ∈ r.statusHistories.get t)
    (after : ∀ x ∈ r.statusHistories.get t,
      instant (c.eventTimestamp x) ≤ instant (c.eventTimestamp last))
    (hn : n ∈ g.nodes) (named : n.id = taskNodeId r.taskId t)
    (alive : ∀ e ∈ g.edges, e.kind = .deadLetteredTo → e.source ≠ n.id) :
    n.state = some (c.stateFromStatus (c.text.stripped (last.lookup "status"))) ↔
      LatestDecides r c b t last := by
  have latest := latestStatus_eq distinct format mem after
  rw [state_taskNode collected done listed distinct latest hn named alive, Option.some.injEq,
    foldl_publish_ownStatuses (stateFromStatus_ne_replayed c _)]
  rfl

/-- A status of a task, at a second of the minute of `minuteBuiltins`. -/
def statusAt (status second : String) : Item :=
  [("status", .str status), ("timestamp", .str ("2024-01-01T00:00:" ++ second ++ "+00:00"))]

def minuteInstant (text : String) : Int :=
  ((minuteBuiltins.fromisoformat text).map DateTime.wall).getD 0

/-- A task that was received and processed. -/
def processedTask : Request where
  topology := .sharedTasksSharedStatus
  taskId := "task-1"
  statusHistories := .single "task-1" [statusAt "processing" "02", statusAt "completed" "03"]
  observationHistories := .single "task-1" [observedAt "TaskMessageReceived" "01" []]
  dlqRecords := .empty
  relatedTaskIds := []

/-- The node with the id in the graph of the request, when no dead letter is drawn. -/
def nodeIn (r : Request) (c : Builtins) (id : String) (test : ExecutionGraphNode → Bool) : Bool :=
  match r.buildExecutionGraph c with
  | .ok g => g.nodes.any (fun n => n.id = id && test n) && g.edges.all (·.kind ≠ .deadLetteredTo)
  | .error _ => false

theorem nodeIn_spec {r : Request} {c : Builtins} {id : String} {test : ExecutionGraphNode → Bool}
    (h : nodeIn r c id test = true) : ∃ b g n, r.collect c = .ok b ∧ r.finish c b = .ok g ∧
      n ∈ g.nodes ∧ n.id = id ∧ test n = true ∧
        ∀ e ∈ g.edges, e.kind = .deadLetteredTo → e.source ≠ n.id := by
  unfold nodeIn at h
  split at h
  · rename_i g built
    rw [Bool.and_eq_true, List.any_eq_true, List.all_eq_true] at h
    obtain ⟨⟨n, hn, found⟩, alive⟩ := h
    rw [Bool.and_eq_true, decide_eq_true_eq] at found
    obtain ⟨b, collected, done⟩ := build_ok built
    exact ⟨b, g, n, collected, done, hn, found.1, found.2,
      fun e he kind => absurd kind (of_decide_eq_true (alive e he))⟩
  · cases h

theorem task_shows_latest_processedTask : ∃ b g n,
    processedTask.collect minuteBuiltins = .ok b ∧ processedTask.finish minuteBuiltins b = .ok g ∧
      n ∈ g.nodes ∧ n.id = taskNodeId processedTask.taskId "task-1" ∧
        (n.state = some (minuteBuiltins.stateFromStatus (minuteBuiltins.text.stripped
            ((statusAt "completed" "03").lookup "status"))) ↔
          LatestDecides processedTask minuteBuiltins b "task-1" (statusAt "completed" "03")) := by
  have shown : nodeIn processedTask minuteBuiltins (taskNodeId processedTask.taskId "task-1")
      (fun _ => true) = true := by decide +kernel
  have listed : processedTask.listed "task-1" = true := by decide +kernel
  have distinct : ((processedTask.statusHistories.get "task-1").map
      minuteBuiltins.eventTimestamp).Nodup := by decide +kernel
  have format : ∀ x ∈ processedTask.statusHistories.get "task-1",
      ∀ y ∈ processedTask.statusHistories.get "task-1",
        minuteBuiltins.eventTimestamp x < minuteBuiltins.eventTimestamp y →
          minuteInstant (minuteBuiltins.eventTimestamp x) <
            minuteInstant (minuteBuiltins.eventTimestamp y) := by decide +kernel
  have mem : statusAt "completed" "03" ∈ processedTask.statusHistories.get "task-1" :=
    List.mem_cons_of_mem _ (List.mem_singleton_self _)
  have after : ∀ x ∈ processedTask.statusHistories.get "task-1",
      minuteInstant (minuteBuiltins.eventTimestamp x) ≤
        minuteInstant (minuteBuiltins.eventTimestamp (statusAt "completed" "03")) := by
    decide +kernel
  generalize processedTask = r, minuteBuiltins = c, statusAt "completed" "03" = last at *
  obtain ⟨b, g, n, collected, done, hn, named, -, alive⟩ := nodeIn_spec shown
  exact ⟨b, g, n, collected, done, hn, named, task_shows_latest_iff r c b g n "task-1" last
    minuteInstant collected done listed distinct format mem after hn named alive⟩

/-- A task that was retried before anything received it. -/
def unreceivedTask : Request where
  topology := .sharedTasksSharedStatus
  taskId := "task-1"
  statusHistories := .single "task-1" [statusAt "retrying" "02", statusAt "processing" "03"]
  observationHistories := .empty
  dlqRecords := .empty
  relatedTaskIds := []

theorem unreceived_task_stays_retrying : ∃ b g n,
    unreceivedTask.collect minuteBuiltins = .ok b ∧
      unreceivedTask.finish minuteBuiltins b = .ok g ∧
      unreceivedTask.latestStatus minuteBuiltins "task-1" = some (statusAt "processing" "03") ∧
      ((unreceivedTask.statusHistories.get "task-1").map minuteBuiltins.eventTimestamp).Nodup ∧
      n ∈ g.nodes ∧ n.id = taskNodeId unreceivedTask.taskId "task-1" ∧
      (∀ e ∈ g.edges, e.kind = .deadLetteredTo → e.source ≠ n.id) ∧
      n.state = some .retrying ∧
      n.state ≠ some (minuteBuiltins.stateFromStatus (minuteBuiltins.text.stripped
        ((statusAt "processing" "03").lookup "status"))) := by
  have shown : nodeIn unreceivedTask minuteBuiltins (taskNodeId unreceivedTask.taskId "task-1")
      (fun n => n.state = some .retrying) = true := by decide +kernel
  have running : minuteBuiltins.stateFromStatus (minuteBuiltins.text.stripped
      ((statusAt "processing" "03").lookup "status")) = .running := by decide +kernel
  have distinct : ((unreceivedTask.statusHistories.get "task-1").map
      minuteBuiltins.eventTimestamp).Nodup := by decide +kernel
  obtain ⟨b, g, n, collected, done, hn, named, state, alive⟩ := nodeIn_spec shown
  refine ⟨b, g, n, collected, done, rfl, distinct, hn, named, alive, of_decide_eq_true state, ?_⟩
  rw [of_decide_eq_true state, running]
  exact fun same => NodeState.noConfusion (Option.some.inj same)

end Relayna.Observability.Execution
