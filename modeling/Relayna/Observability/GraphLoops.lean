import Relayna.Observability.GraphObservations

/-!
# The other loops

Before the observations come the nodes of the tasks. After them the loops over the statuses, the
pending retries and the records go on from the ledger of all observations. They number their items
within a task, and what they read of the graph is what the observations left: the attempts, the
stage attempts and the nodes of the tasks.
-/
namespace Relayna.Observability.Execution

open Python Contracts

/-! ## The nodes of the tasks -/

def taskNodeOf (root taskId : String) : ExecutionGraphNode where
  id := taskNodeId root taskId
  kind := if taskId = root then .task else .aggregationChild
  taskId := some taskId
  label := some taskId

/-- The graph of a task and its related tasks. -/
def startOf (root : String) (related : List String) : Build where
  nodes := (root :: related).map (taskNodeOf root)
  edges := related.map fun t =>
    { source := taskNodeId root t, target := taskNodeId root root, kind := .aggregatedInto }
  taskNodeIds := (root :: related).map fun t => (t, taskNodeId root t)

section Start

variable {root t : String} {related : List String}

theorem taskNodeId_injective : Function.Injective (taskNodeId root) := by
  have as_key (t : String) :
      taskNodeId root t = Key.render (if t = root then .task t else .child t) := by
    unfold taskNodeId
    split <;> rfl
  intro t t' same
  rw [as_key, as_key] at same
  have keys := Key.render_injective same
  split at keys <;> split at keys <;> simp_all

theorem lookup_taskNodes (tasks : List String) :
    (tasks.map fun t => (t, taskNodeId root t)).lookup t =
      if t ∈ tasks then some (taskNodeId root t) else none := by
  induction tasks with
  | nil => rfl
  | cons s tasks ih =>
    rw [List.map_cons, List.lookup_cons, ih]
    by_cases here : t = s
    · simp [here]
    · rw [beq_eq_false_iff_ne.mpr here]
      simp [here]

theorem addRelated_startOf (new : t ∉ root :: related) :
    (startOf root related).addRelated root t = startOf root (related ++ [t]) := by
  have absent : ((startOf root related).taskNodeIds.lookup t).isSome = false := by
    rw [startOf, lookup_taskNodes, if_neg new]
    rfl
  have fresh : (taskNodeOf root t).id ∉ (startOf root related).ids := by
    intro mem
    simp only [startOf, Build.ids, List.map_map] at mem
    obtain ⟨s, hs, same⟩ := List.mem_map.mp mem
    exact new (taskNodeId_injective same ▸ hs)
  have added := Build.addNode_new fresh
  unfold Build.addRelated Build.addTaskNode
  rw [absent, if_neg Bool.false_ne_true]
  change Build.addEdge { (startOf root related).addNode (taskNodeOf root t) with
    taskNodeIds := ((startOf root related).addNode (taskNodeOf root t)).taskNodeIds ++ _ } _ = _
  rw [added]
  simp [startOf, Build.addEdge, stamped, Build.taskTypeOf, taskNodeOf]

theorem foldl_addRelated (distinct : (root :: related).Nodup) :
    related.foldl (·.addRelated root ·) (Build.addTaskNode {} root root) =
      startOf root related := by
  induction related using List.reverseRecOn with
  | nil => simp [startOf, Build.addTaskNode, Build.addNode, taskNodeOf, stamped, Build.taskTypeOf]
  | append_singleton related t ih =>
    rw [← List.cons_append] at distinct
    obtain ⟨before, -, apart⟩ := List.nodup_append.mp distinct
    have new : t ∉ root :: related := fun old => apart t old t (List.mem_singleton_self t) rfl
    rw [List.foldl_append, ih before]
    exact addRelated_startOf new

end Start

theorem taskKey_render (r : Request) (t : String) :
    (r.taskKey t).render = taskNodeId r.taskId t := by
  unfold Request.taskKey taskNodeId
  split <;> rfl

theorem isTask_of_mem_taskKeys {r : Request} {k : Key} (h : k ∈ r.taskKeys) : k.isTask = true := by
  by_contra other
  exact notMem_taskKeys (Bool.not_eq_true _ ▸ other) h

theorem Described.start (r : Request) (c : Builtins) : Described r (r.ledger c []) r.start := by
  have distinct : (r.taskId :: r.relatedIds).Nodup := taskKeys_nodup.of_map _
  have shape : r.start = startOf r.taskId r.relatedIds := foldl_addRelated distinct
  have ids : (startOf r.taskId r.relatedIds).ids =
      (r.taskId :: r.relatedIds).map (taskNodeId r.taskId) := by
    rw [Build.ids, startOf, List.map_map]
    rfl
  have root : taskNodeId r.taskId r.taskId ∈ (startOf r.taskId r.relatedIds).ids := by
    rw [ids]
    exact List.mem_map_of_mem List.mem_cons_self
  rw [shape]
  exact
    { ids := by
        rw [ids]
        show _ = r.taskKeys.map Key.render
        rw [Request.taskKeys, List.map_map]
        exact List.map_congr_left fun t _ => (taskKey_render r t).symm
      items := by
        have none_item : (r.taskKeys.filter Key.isItem) = [] := by
          rw [List.filter_eq_nil_iff]
          intro k hk
          have := isTask_of_mem_taskKeys hk
          cases k <;> simp_all [Key.isTask, Key.isItem]
        show [] = _
        rw [Request.ledger, Request.keys, none_item]
        rfl
      nodup := taskKeys_nodup
      owned := by
        intro n hn
        obtain ⟨t, -, rfl⟩ := List.mem_map.mp hn
        rw [taskNodeOf]
        rfl
      ends := by
        intro e he
        obtain ⟨t, ht, rfl⟩ := List.mem_map.mp he
        refine ⟨?_, root⟩
        rw [ids]
        exact List.mem_map_of_mem (List.mem_cons_of_mem _ ht)
      tasks := by
        intro t
        rw [startOf, lookup_taskNodes, taskKey_render]
        simp [Request.listed]
      taskKeys := by
        intro t listed
        exact List.mem_map_of_mem (by simpa [Request.listed] using listed)
      attempts := by
        intro t
        simp [startOf, Request.ledger, Builtins.attemptCount]
      attemptKeys := by
        intro t i hi
        simp [Request.ledger, Builtins.attemptCount] at hi
      attemptTimes := by
        intro t n hn
        simp [startOf, Build.attempts] at hn
      stageAttempts := rfl
      stageKeys := List.forall_mem_nil _
      stages := rfl
      messages := by
        intro m _
        simp [startOf, Request.ledger, Builtins.mentioned]
      messageKeys := by
        intro m _ h
        simp [Request.ledger, Builtins.mentioned] at h
      retries := by
        intro t
        simp [startOf, Request.ledger, Builtins.linkedRetries, List.countP_map, Builtins.retried]
      deadLetters := by
        intro t
        show List.countP _ (List.map _ _) = 0
        rw [List.countP_map, List.countP_eq_zero]
        intro t' _
        simp only [Function.comp, taskNodeOf]
        split <;> simp
      times := by
        intro s
        simp [startOf, Request.ledger, Request.recordedTimes]
      links := List.forall_mem_nil _ }

/-! ## Statuses -/

theorem mem_of_nextAttempt {l : List ExecutionGraphNode} {timestamp : Option String}
    {n : ExecutionGraphNode} (h : nextAttempt l timestamp = some n) : n ∈ l := by
  obtain ⟨ts, -, found⟩ := Option.bind_eq_some_iff.mp h
  exact List.mem_of_find?_eq_some found

/-- The ledger after the statuses in `done`, newest first. -/
def Ledger.addStatuses (L : Ledger) (c : Builtins) (done : List (String × Nat × Item)) : Ledger :=
  { L with
    keys := L.keys ++ done.reverse.map fun e => .status e.1 e.2.1
    times := L.times ∪ {s | ∃ e ∈ done, s ∈ stamped (some (c.eventTimestamp e.2.2))} }

/-- Something that the status of a task can be drawn from. -/
def Ledger.hasSource (L : Ledger) (r : Request) (t timestamp : String) : Bool :=
  r.listed t || if r.topology = .sharedStatusWorkflow then L.receptions.any (·.2 ≤ timestamp)
    else L.attempts t ≠ 0

namespace Described

variable {r : Request} {c : Builtins} {L : Ledger} {b b' : Build} {t timestamp : String}

/-- An edge that has a time on record. -/
theorem drawEdge {e : ExecutionGraphEdge} (h : Described r L b) (source : e.source ∈ b.ids)
    (target : e.target ∈ b.ids) (kind : e.kind ≠ .retriedAs)
    (known : ∀ s ∈ stamped e.timestamp, s ∈ L.times) : Described r L (b.addEdge e) := by
  refine (h.addEdge source target).of_eq ?_
  ext t
  case times =>
    simp only [Ledger.addEdge, Set.mem_union, Set.mem_ofPred_eq, or_iff_left_iff_imp]
    exact known t
  all_goals simp [Ledger.addEdge, Builtins.retried, kind]

theorem taskNode_cases (h : Described r L b) :
    (r.listed t = true ∧ ∃ id, b.taskNode t = .ok id ∧ id ∈ b.ids) ∨
      (r.listed t = false ∧ b.taskNode t = .error (.keyError t)) := by
  cases listed : r.listed t with
  | true => exact Or.inl ⟨rfl, _, h.taskNode listed⟩
  | false => exact Or.inr ⟨rfl, h.taskNode_error listed⟩

theorem statusSource_cases (h : Described r L b) (t timestamp : String) :
    (L.hasSource r t timestamp = true ∧
      ∃ id, Builtins.statusSource r.topology b t (some timestamp) = .ok id ∧ id ∈ b.ids) ∨
    (L.hasSource r t timestamp = false ∧
      Builtins.statusSource r.topology b t (some timestamp) = .error (.keyError t)) := by
  unfold Builtins.statusSource Ledger.hasSource
  by_cases workflow : r.topology = .sharedStatusWorkflow
  · rw [if_pos workflow, if_pos workflow]
    rcases h.latestStageAttempt_cases none timestamp with
      ⟨seen, attempt, found, present⟩ | ⟨unseen, found⟩
    · simp only [Option.all_none, Bool.true_and] at seen
      rw [found, seen, Bool.or_true]
      exact Or.inl ⟨rfl, _, rfl, present⟩
    · simp only [Option.all_none, Bool.true_and] at unseen
      rw [found, unseen, Bool.or_false]
      exact h.taskNode_cases
  · rw [if_neg workflow, if_neg workflow]
    rcases h.latestAttempt_cases (t := t) (some timestamp) with
      ⟨seen, attempt, found, present⟩ | ⟨unseen, found⟩
    · rw [found, decide_eq_true seen, Bool.or_true]
      exact Or.inl ⟨rfl, _, rfl, present⟩
    · rw [found, decide_eq_false (not_not.mpr unseen), Bool.or_false]
      exact h.taskNode_cases

theorem linkManualRetry (h : Described r L b) (event : Item)
    (known : ∀ s ∈ stamped (some timestamp), s ∈ L.times) :
    Described r L (c.linkManualRetry b t event (some timestamp)) := by
  unfold Builtins.linkManualRetry
  split
  · dsimp only
    split
    · rename_i source target before after
      exact h.drawEdge (mem_ids_of_filterMap (mem_of_latestAttempt before))
        (mem_ids_of_filterMap (mem_of_nextAttempt after)) EdgeKind.noConfusion known
    · exact h
  · exact h

theorem addStatus {done : List (String × Nat × Item)} {n : Nat} {event : Item}
    {entries : List (Value × Value)} (h : Described r (L.addStatuses c done) b)
    (new : .status t n ∉ (L.addStatuses c done).keys) (read : Builtins.metaOf event = .ok entries)
    (drawn : L.hasSource r t (c.eventTimestamp event) = true) :
    ∃ b', c.addStatus r.topology b (t, n, event) = .ok b' ∧
      Described r (L.addStatuses c ((t, n, event) :: done)) b' := by
  have named : (c.statusNode t n event entries).id = (Key.status t n).render := rfl
  have added := h.addItem named new rfl rfl
  rcases added.statusSource_cases t (c.eventTimestamp event) with
    ⟨-, source, found, present⟩ | ⟨undrawn, -⟩
  · have target : (c.statusNode t n event entries).id ∈
        (b.addItem (c.statusNode t n event entries)).ids := by
      rw [named, added.mem_ids]
      simp [Ledger.addNode]
    have known : ∀ s ∈ stamped (some (c.eventTimestamp event)), s ∈
        ((L.addStatuses c done).addNode (.status t n) (c.statusNode t n event entries)).times :=
      fun s hs => Or.inr hs
    have drawn := added.drawEdge (e := ⟨source, (c.statusNode t n event entries).id,
      .publishedStatus, some (c.eventTimestamp event), none, none, none, []⟩) present target
      EdgeKind.noConfusion known
    have linked := drawn.linkManualRetry (c := c) (t := t) event known
    unfold Builtins.addStatus
    dsimp only
    rw [read]
    refine ⟨_, congrArg (Except.map _) found, linked.of_eq ?_⟩
    ext <;> simp [Ledger.addStatuses, Ledger.addNode, Builtins.statusNode]
    rw [or_right_comm, or_assoc]
  · exact absurd (undrawn.symm.trans drawn) Bool.false_ne_true

end Described

theorem itemNodes_linkManualRetry {c : Builtins} {b : Build} {t : String} {event : Item}
    {timestamp : Option String} :
    (c.linkManualRetry b t event timestamp).itemNodes = b.itemNodes := by
  unfold Builtins.linkManualRetry
  split
  · dsimp only
    split <;> rfl
  · rfl

theorem itemNodes_addStatus {c : Builtins} {b b' : Build} {topology : RelaynaTopology}
    {e : String × Nat × Item} (h : c.addStatus topology b e = .ok b') :
    b'.itemNodes = b.itemNodes ++ [statusId e.1 e.2.1] := by
  obtain ⟨entries, -, h⟩ := Failing.bind_ok.mp h
  obtain ⟨source, -, rfl⟩ := Failing.map_ok.mp h
  exact itemNodes_linkManualRetry

section StatusLoop

variable {r : Request} {c : Builtins} {L : Ledger} {b b' : Build}

/-- The status has a mapping, something it can be drawn from and a number of its own. -/
structure StatusDrawn (r : Request) (c : Builtins) (L : Ledger) (done : List (String × Nat × Item))
    (e : String × Nat × Item) : Prop where
  read : ∃ entries, Builtins.metaOf e.2.2 = .ok entries
  source : L.hasSource r e.1 (c.eventTimestamp e.2.2) = true
  new : .status e.1 e.2.1 ∉ (L.addStatuses c done).keys

theorem Described.addStatus_spoils {done : List (String × Nat × Item)} {e : String × Nat × Item}
    (h : Described r (L.addStatuses c done) b) (undrawn : ¬StatusDrawn r c L done e)
    (ended : c.addStatus r.topology b e = .ok b') : ¬b'.itemNodes.Nodup := by
  by_cases new : Key.status e.1 e.2.1 ∈ (L.addStatuses c done).keys
  · rw [itemNodes_addStatus ended]
    exact h.given_twice new rfl
  · obtain ⟨entries, read, ended⟩ := Failing.bind_ok.mp ended
    obtain ⟨source, found, -⟩ := Failing.map_ok.mp ended
    have added := h.addItem (n := c.statusNode e.1 e.2.1 e.2.2 entries) rfl new rfl rfl
    rcases added.statusSource_cases e.1 (c.eventTimestamp e.2.2) with
      ⟨drawn, -⟩ | ⟨-, failed⟩
    · exact absurd ⟨⟨entries, read⟩, drawn, new⟩ undrawn
    · cases failed.symm.trans found

theorem addStatus_planned (r : Request) (c : Builtins) (L : Ledger) :
    Failing.Planned (c.addStatus r.topology) (fun done b => Described r (L.addStatuses c done) b)
      (fun b => ¬b.itemNodes.Nodup) (StatusDrawn r c L) where
  round h drawn := by
    obtain ⟨⟨entries, read⟩, source, new⟩ := drawn
    exact h.addStatus new read source
  spoils h undrawn ended := h.addStatus_spoils undrawn ended
  stays twice ended nodup := by
    rw [itemNodes_addStatus ended] at nodup
    exact twice (nodup.sublist (List.sublist_append_left _ _))

end StatusLoop

/-! ## Pending retries -/

section Links

variable {r : Request} {L : Ledger} {b : Build}

theorem ids_linkRetry (b : Build) (l : PendingRetryLink) :
    (Builtins.linkRetry b l).ids = b.ids ∧ (Builtins.linkRetry b l).itemNodes = b.itemNodes := by
  unfold Builtins.linkRetry
  split <;> exact ⟨rfl, rfl⟩

theorem itemNodes_linkRetries (links : List PendingRetryLink) :
    (links.foldl Builtins.linkRetry b).itemNodes = b.itemNodes := by
  induction links generalizing b with
  | nil => rfl
  | cons l links ih => exact ih.trans (ids_linkRetry b l).2

theorem Described.linkRetry {l : PendingRetryLink} (h : Described r L b)
    (present : l.retryNodeId ∈ b.ids) : Described r L (Builtins.linkRetry b l) := by
  unfold Builtins.linkRetry
  split
  · rename_i next found
    have attempt := mem_of_nextAttempt found
    exact h.drawEdge present (mem_ids_of_filterMap attempt) EdgeKind.noConfusion
      (h.attemptTimes _ next attempt)
  · exact h

theorem Described.linkRetries {links : List PendingRetryLink} (h : Described r L b)
    (present : ∀ l ∈ links, l.retryNodeId ∈ b.ids) :
    Described r L (links.foldl Builtins.linkRetry b) := by
  induction links generalizing b with
  | nil => exact h
  | cons l links ih =>
    rw [List.forall_mem_cons] at present
    refine ih (h.linkRetry present.1) fun l' hl' => ?_
    rw [(ids_linkRetry b l).1]
    exact present.2 l' hl'

end Links

/-! ## Records -/

def Builtins.deadLetteredAt (c : Builtins) (item : Item) : String :=
  c.coerceTimestamp (item.lookup "dead_lettered_at")

def recordKey (e : String × Nat × Item) : Key := .dlq (e.1 ++ ":record") e.2.1

/-- The ledger after the records in `done`, newest first. -/
def Ledger.addRecords (L : Ledger) (c : Builtins) (done : List (String × Nat × Item)) : Ledger :=
  { L with
    keys := L.keys ++ done.reverse.map recordKey
    deadLetters := fun t => L.deadLetters t + done.countP (·.1 = t)
    times := L.times ∪ {s | ∃ e ∈ done, s ∈ stamped (some (c.deadLetteredAt e.2.2))} }

section Records

variable {r : Request} {c : Builtins} {L : Ledger} {b b' : Build}
  {done : List (String × Nat × Item)} {e : String × Nat × Item}

/-- The record has something it can be drawn from and an id of its own. -/
structure RecordDrawn (r : Request) (c : Builtins) (L : Ledger) (done : List (String × Nat × Item))
    (e : String × Nat × Item) : Prop where
  source : L.attempts e.1 ≠ 0 ∨ r.listed e.1 = true
  new : recordKey e ∉ (L.addRecords c done).keys

theorem recordNode_id (c : Builtins) (e : String × Nat × Item) :
    (c.recordNode e.1 e.2.1 e.2.2).id = (recordKey e).render := recordId_eq e.1 e.2.1

theorem itemNodes_addRecord (h : c.addRecord b e = .ok b') :
    b'.itemNodes = b.itemNodes ++ [(recordKey e).render] := by
  rw [← recordNode_id c e]
  unfold Builtins.addRecord at h
  dsimp only at h
  split at h
  · rw [← Except.ok.inj h]
  · obtain ⟨source, -, rfl⟩ := Failing.map_ok.mp h
    rfl

/-- Where the edge of a record comes from. -/
def recordSource (b : Build) (t : String) (timestamp : Option String) :
    Except GraphError String :=
  match latestAttempt (b.attempts t) timestamp with
  | some attempt => .ok attempt.id
  | none => b.taskNode t

theorem addRecord_new (fresh : (c.recordNode e.1 e.2.1 e.2.2).id ∉ b.ids) :
    c.addRecord b e =
      (recordSource (b.addItem (c.recordNode e.1 e.2.1 e.2.2)) e.1
        (some (c.deadLetteredAt e.2.2))).map fun source =>
          (b.addItem (c.recordNode e.1 e.2.1 e.2.2)).addEdge
            { source := source, target := (c.recordNode e.1 e.2.1 e.2.2).id,
              kind := .deadLetteredTo, timestamp := some (c.deadLetteredAt e.2.2) } :=
  if_neg fresh

theorem Described.recordSource_cases (h : Described r L b) (t : String)
    (timestamp : Option String) :
    ((L.attempts t ≠ 0 ∨ r.listed t = true) ∧
      ∃ id, recordSource b t timestamp = .ok id ∧ id ∈ b.ids) ∨
    (¬(L.attempts t ≠ 0 ∨ r.listed t = true) ∧
      recordSource b t timestamp = .error (.keyError t)) := by
  unfold recordSource
  rcases h.latestAttempt_cases (t := t) timestamp with
    ⟨seen, attempt, found, present⟩ | ⟨unseen, found⟩
  all_goals rw [found]
  · exact Or.inl ⟨Or.inl seen, _, rfl, present⟩
  · rcases h.taskNode_cases (t := t) with ⟨listed, found⟩ | ⟨unlisted, failed⟩
    · exact Or.inl ⟨Or.inr listed, found⟩
    · exact Or.inr ⟨by simp [unseen, unlisted], failed⟩

theorem Described.addRecord (h : Described r (L.addRecords c done) b)
    (drawn : RecordDrawn r c L done e) :
    ∃ b', c.addRecord b e = .ok b' ∧ Described r (L.addRecords c (e :: done)) b' := by
  have named := recordNode_id c e
  have fresh : (c.recordNode e.1 e.2.1 e.2.2).id ∉ b.ids := by
    rw [named, h.mem_ids]
    exact drawn.new
  have added := h.addItem named drawn.new rfl rfl
  rcases added.recordSource_cases e.1 (some (c.deadLetteredAt e.2.2)) with
    ⟨-, source, found, present⟩ | ⟨undrawn, -⟩
  · have target : (c.recordNode e.1 e.2.1 e.2.2).id ∈
        (b.addItem (c.recordNode e.1 e.2.1 e.2.2)).ids := by
      rw [named, added.mem_ids]
      simp [Ledger.addNode]
    have known : ∀ s ∈ stamped (some (c.deadLetteredAt e.2.2)), s ∈
        ((L.addRecords c done).addNode (recordKey e) (c.recordNode e.1 e.2.1 e.2.2)).times :=
      fun s hs => Or.inr hs
    rw [addRecord_new fresh, found]
    refine ⟨_, rfl, (added.drawEdge present target EdgeKind.noConfusion known).of_eq ?_⟩
    ext <;> simp [Ledger.addRecords, Ledger.addNode, Builtins.recordNode, List.countP_cons]
    · rw [Nat.add_assoc]
    · rw [or_right_comm, or_assoc]
      rfl
  · exact absurd drawn.source undrawn

theorem Described.addRecord_spoils (h : Described r (L.addRecords c done) b)
    (undrawn : ¬RecordDrawn r c L done e) (ended : c.addRecord b e = .ok b') :
    ¬b'.itemNodes.Nodup := by
  by_cases new : recordKey e ∈ (L.addRecords c done).keys
  · rw [itemNodes_addRecord ended]
    exact h.given_twice new rfl
  · have fresh : (c.recordNode e.1 e.2.1 e.2.2).id ∉ b.ids := by
      rw [recordNode_id, h.mem_ids]
      exact new
    rw [addRecord_new fresh] at ended
    obtain ⟨source, found, -⟩ := Failing.map_ok.mp ended
    have added := h.addItem (recordNode_id c e) new rfl rfl
    rcases added.recordSource_cases e.1 (some (c.deadLetteredAt e.2.2)) with
      ⟨drawn, -⟩ | ⟨-, failed⟩
    · exact absurd ⟨drawn, new⟩ undrawn
    · cases failed.symm.trans found

theorem addRecord_planned (r : Request) (c : Builtins) (L : Ledger) :
    Failing.Planned c.addRecord (fun done b => Described r (L.addRecords c done) b)
      (fun b => ¬b.itemNodes.Nodup) (RecordDrawn r c L) where
  round h drawn := h.addRecord drawn
  spoils h undrawn ended := h.addRecord_spoils undrawn ended
  stays twice ended nodup := by
    rw [itemNodes_addRecord ended] at nodup
    exact twice (nodup.sublist (List.sublist_append_left _ _))

end Records

end Relayna.Observability.Execution
