import Mathlib.Algebra.Ring.Nat
import Relayna.Observability.GraphLoops

/-!
# When an execution graph is well formed

`build_execution_graph` draws the histories, or it fails, or it gives two items one node. Which of
these happens is read off the histories: `Drawable` lists what they have to meet, and the loops and
the summary end well exactly then.
-/
namespace Relayna.Observability.Execution

open Python Contracts

/-! ## Live states -/

section States

variable {c : Builtins} {nodes : List ExecutionGraphNode} {edges : List ExecutionGraphEdge}

/-- What does not look at the states is the same after an edge. -/
theorem map_propagate {β : Type} {f : ExecutionGraphNode → β}
    (blind : ∀ n state reason updatedAt, f (n.setState state reason updatedAt) = f n)
    (nodes : List ExecutionGraphNode) (e : ExecutionGraphEdge) :
    (propagate nodes e).map f = nodes.map f := by
  have keeps (id : String) (nodes : List ExecutionGraphNode)
      (g : ExecutionGraphNode → ExecutionGraphNode) (h : ∀ n, f (g n) = f n) :
      (Keyed.amend ExecutionGraphNode.id id g nodes).map f = nodes.map f := Keyed.map_amend h
  have kept (p : Prop) [Decidable p] (n m : ExecutionGraphNode) (h : f m = f n) :
      f (if p then n else m) = f n := by
    split
    · rfl
    · exact h
  unfold propagate
  dsimp only
  split
  · refine (keeps _ _ _ ?_).trans (keeps _ _ _ ?_)
    · exact fun _ => blind _ _ _ _
    · exact fun _ => blind _ _ _ _
  · exact keeps _ _ _ fun n => kept _ n _ (blind _ _ _ _)
  · exact keeps _ _ _ fun n => kept _ n _ (blind _ _ _ _)
  · split
    · split
      · split
        · exact keeps _ _ _ fun n => kept _ n _ (blind _ _ _ _)
        · rfl
      · rfl
    · rfl
  · rfl

theorem map_projectLiveState {β : Type} {f : ExecutionGraphNode → β}
    (blind : ∀ n state reason updatedAt, f (n.setState state reason updatedAt) = f n)
    {latest : String → Option Item} :
    (projectLiveState c nodes edges latest).1.map f = nodes.map f := by
  have folded (l : List ExecutionGraphEdge) (ns : List ExecutionGraphNode) :
      (l.foldl propagate ns).map f = ns.map f := by
    induction l generalizing ns with
    | nil => rfl
    | cons e l ih => exact (ih _).trans (map_propagate blind ns e)
  unfold projectLiveState
  rw [folded, List.map_map]
  exact List.map_congr_left fun n _ => blind _ _ _ _

theorem ids_projectLiveState {latest : String → Option Item} :
    (projectLiveState c nodes edges latest).1.map ExecutionGraphNode.id =
      nodes.map ExecutionGraphNode.id := map_projectLiveState fun _ _ _ _ => rfl

/-- A node without its live state. -/
def ExecutionGraphNode.bare (n : ExecutionGraphNode) : ExecutionGraphNode :=
  { n with state := none, stateReason := none, updatedAt := none }

def Build.nodesInOrder (b : Build) : List ExecutionGraphNode :=
  sortedBy (fun node => [node.timestamp.getD "", node.id]) b.nodes

def Build.edgesInOrder (b : Build) : List ExecutionGraphEdge :=
  sortedBy (fun edge => [edge.timestamp.getD "", edge.kind.name, edge.source, edge.target]) b.edges

theorem finish_ok {r : Request} {b : Build} {g : ExecutionGraph} (done : r.finish c b = .ok g) :
    g.nodes = (projectLiveState c b.nodesInOrder b.edgesInOrder (r.latestStatus c)).1 ∧
      g.edges = b.edgesInOrder.map ExecutionGraphEdge.settle ∧
      c.buildSummary (r.statusHistories.get r.taskId) b.allTimestamps
        (!r.observationHistories.entries.isEmpty) g.nodes = .ok g.summary := by
  obtain ⟨summary, summed, rfl⟩ := Failing.map_ok.mp done
  exact ⟨rfl, rfl, summed⟩

/-- The nodes and the edges of the graph are those that were collected. -/
theorem finish_perm {r : Request} {b : Build} {g : ExecutionGraph} (done : r.finish c b = .ok g) :
    (g.nodes.map ExecutionGraphNode.bare).Perm (b.nodes.map ExecutionGraphNode.bare) ∧
      g.edges.Perm (b.edges.map ExecutionGraphEdge.settle) := by
  obtain ⟨nodes, edges, -⟩ := finish_ok done
  constructor
  · rw [nodes, map_projectLiveState fun _ _ _ _ => rfl]
    exact (List.perm_insertionSort _ _).map _
  · rw [edges]
    exact (List.perm_insertionSort _ _).map _

theorem sum_countState (counts : List (NodeState × Nat)) (state : NodeState) :
    ((countState counts state).map Prod.snd).sum = (counts.map Prod.snd).sum + 1 := by
  unfold countState
  split
  · rename_i known
    induction counts with
    | nil => simp at known
    | cons e counts ih =>
      unfold Keyed.amend
      by_cases here : e.1 = state
      · simp [here]
        omega
      · have rest : state ∈ counts.map Prod.fst := by simpa [Ne.symm here] using known
        simp [here, ih rest]
        omega
  · simp

theorem sum_liveStateCounts (nodes : List ExecutionGraphNode) :
    ((liveStateCounts nodes).map Prod.snd).sum = nodes.length := by
  have folded (nodes : List ExecutionGraphNode) (counts : List (NodeState × Nat)) :
      ((nodes.foldl (fun counts node => countState counts (node.state.getD .unknown)) counts).map
        Prod.snd).sum = (counts.map Prod.snd).sum + nodes.length := by
    induction nodes generalizing counts with
    | nil => rfl
    | cons n nodes ih =>
      rw [List.foldl_cons, ih, sum_countState, List.length_cons]
      omega
  unfold liveStateCounts sortedBy
  rw [((List.perm_insertionSort _ _).map _).sum_nat, folded]
  simp

end States

/-! ## The first and the last time -/

def inOrder (times : List String) : List String := sortedBy (fun t => [t]) times

section Times

variable {l m : List String} {s : String}

theorem mem_inOrder : s ∈ inOrder l ↔ s ∈ l := List.mem_insertionSort _

theorem singleton_le {a b : String} : [a] ≤ [b] ↔ a ≤ b := by
  rw [← not_lt, ← not_lt, List.cons_lt_cons_iff]
  simp only [lt_irrefl, and_false, or_false]

theorem pairwise_inOrder (l : List String) : (inOrder l).Pairwise (· ≤ ·) := by
  have total : Std.Total fun a b : String => [a] ≤ [b] := ⟨fun a b => le_total [a] [b]⟩
  have trans : IsTrans String fun a b => [a] ≤ [b] := ⟨fun _ _ _ => le_trans⟩
  exact (List.pairwise_insertionSort (fun a b : String => [a] ≤ [b]) l).imp singleton_le.mp

theorem head?_of_pairwise {R : String → String → Prop} (refl : ∀ a, R a a)
    (antisymm : ∀ a b, R a b → R b a → a = b) (h : l.Pairwise R) :
    l.head? = some s ↔ s ∈ l ∧ ∀ t ∈ l, R s t := by
  cases l with
  | nil => simp
  | cons a l =>
    rw [List.pairwise_cons] at h
    have first : ∀ t ∈ a :: l, R a t := List.forall_mem_cons.mpr ⟨refl a, h.1⟩
    constructor
    · intro head
      obtain rfl := Option.some.inj head
      exact ⟨List.mem_cons_self, first⟩
    · rintro ⟨mem, least⟩
      exact congrArg some (antisymm a s (first s mem) (least a List.mem_cons_self))

theorem head?_inOrder : (inOrder l).head? = some s ↔ s ∈ l ∧ ∀ t ∈ l, s ≤ t := by
  rw [head?_of_pairwise le_refl (fun _ _ => le_antisymm) (pairwise_inOrder l)]
  simp only [mem_inOrder]

theorem getLast?_inOrder : (inOrder l).getLast? = some s ↔ s ∈ l ∧ ∀ t ∈ l, t ≤ s := by
  have falls : (inOrder l).reverse.Pairwise (· ≥ ·) :=
    List.pairwise_reverse.mpr (pairwise_inOrder l)
  rw [← List.head?_reverse,
    head?_of_pairwise (R := (· ≥ ·)) le_refl (fun _ _ h h' => le_antisymm h' h) falls]
  simp only [List.mem_reverse, mem_inOrder, ge_iff_le]

/-- The first and the last time depend on no more than which times there are. -/
theorem ends_inOrder (same : ∀ s, s ∈ l ↔ s ∈ m) :
    (inOrder l).head? = (inOrder m).head? ∧ (inOrder l).getLast? = (inOrder m).getLast? := by
  refine ⟨Option.ext fun s => ?_, Option.ext fun s => ?_⟩
  · simp only [head?_inOrder, same]
  · simp only [getLast?_inOrder, same]

end Times

/-! ## Which histories are drawn -/

namespace Request

variable (r : Request) (c : Builtins)

/-- The observations, newest first. -/
def past : List (String × Item) := (r.observations c).reverse

/-- The times of the nodes and the edges. -/
def times : List String :=
  (r.recordedTimes c (r.past c) ++ (r.statuses c).map (c.eventTimestamp ·.2.2) ++
    r.records.map (c.deadLetteredAt ·.2.2)).filter (· ≠ "")

def startedAt : Option String := (inOrder (r.times c)).head?

def endedAt : Option String :=
  ((r.latestStatus c r.taskId).map c.eventTimestamp).or (inOrder (r.times c)).getLast?

end Request

/-- Every observation that is drawn from the node of its task finds it. -/
def TasksListed (r : Request) (c : Builtins) : Prop :=
  ∀ u x v, r.observations c = u ++ x :: v → c.needsTask u.reverse x = true → r.listed x.1 = true

/-- What the histories have to meet. -/
structure Drawable (r : Request) (c : Builtins) : Prop where
  tasks : TasksListed r c
  samples : (r.sampleTexts c (r.past c)).Nodup
  stages : (c.stageKeys (r.past c)).Nodup
  metas : ∀ e ∈ r.statuses c, ∃ entries, Builtins.metaOf e.2.2 = .ok entries
  statuses : ∀ e ∈ r.statuses c, r.listed e.1 = true ∨ r.topology = .sharedStatusWorkflow ∧
    c.reached (r.past c) none (c.eventTimestamp e.2.2) = true
  records : ∀ e ∈ r.records, r.listed e.1 = true ∧
    c.deadLetterCount (r.past c) (e.1 ++ ":record") < e.2.1
  span : ∃ d, c.duration (r.startedAt c) (r.endedAt c) = .ok d

/-- A graph whose edges join its nodes, whose nodes have ids of their own, in which every item has
a node of its own, and whose summary counts every node once. -/
structure WellFormed (b : Build) (g : ExecutionGraph) : Prop where
  ends : ∀ e ∈ g.edges, e.source ∈ g.nodes.map ExecutionGraphNode.id ∧
    e.target ∈ g.nodes.map ExecutionGraphNode.id
  ids : (g.nodes.map ExecutionGraphNode.id).Nodup
  apart : b.itemNodes.Nodup
  drawn : ∀ id ∈ b.itemNodes, id ∈ g.nodes.map ExecutionGraphNode.id
  counted : (g.summary.liveStateCounts.map Prod.snd).sum = g.nodes.length

section Conditions

variable {r : Request} {c : Builtins}

theorem nodup_append_ite {α : Type} {l : List α} {a : α} {p : Prop} [Decidable p] :
    (l ++ if p then [a] else []).Nodup ↔ l.Nodup ∧ (p → a ∉ l) := by
  split
  · rename_i here
    rw [List.nodup_append_comm, List.singleton_append, List.nodup_cons]
    simp [here, and_comm]
  · rename_i here
    simp [here]

theorem fresh_iff (past : List (String × Item)) (x : String × Item) :
    (r.sampleTexts c (x :: past)).Nodup ∧ (c.stageKeys (x :: past)).Nodup ↔
      ((r.sampleTexts c past).Nodup ∧ (c.stageKeys past).Nodup) ∧ Fresh r c past x := by
  rw [Request.sampleTexts, Builtins.stageKeys, nodup_append_ite, nodup_append_ite]
  constructor
  · rintro ⟨⟨samples, sample⟩, stages, stage⟩
    exact ⟨⟨samples, stages⟩, sample, stage⟩
  · rintro ⟨⟨samples, stages⟩, sample, stage⟩
    exact ⟨⟨samples, sample⟩, stages, stage⟩

theorem rounds_drawn : Failing.Rounds (Drawn r c) [] (r.observations c) ↔
    TasksListed r c ∧ (r.sampleTexts c (r.past c)).Nodup ∧ (c.stageKeys (r.past c)).Nodup := by
  have fresh : (r.sampleTexts c ((r.observations c).reverse ++ [])).Nodup ∧
      (c.stageKeys ((r.observations c).reverse ++ [])).Nodup ↔
        ((r.sampleTexts c []).Nodup ∧ (c.stageKeys []).Nodup) ∧
          Failing.Rounds (Fresh r c) [] (r.observations c) :=
    Failing.rounds_of_step
      (P := fun past => (r.sampleTexts c past).Nodup ∧ (c.stageKeys past).Nodup) fresh_iff
  have none_yet : (r.sampleTexts c []).Nodup ∧ (c.stageKeys []).Nodup := ⟨.nil, .nil⟩
  simp only [List.append_nil, none_yet, true_and, and_self] at fresh
  rw [Request.past, fresh]
  unfold Drawn
  rw [Failing.rounds_and, Failing.rounds_iff, TasksListed]
  simp only [List.append_nil]

/-- The loops that number the items of a task number every item once. -/
theorem numbered_nodup {entries : Fields (List Item)} (distinct : (entries.map Prod.fst).Nodup) :
    ((entries.flatMap fun e => Request.numbered e.1 e.2).map fun e => (e.1, e.2.1)).Nodup := by
  induction entries with
  | nil => exact .nil
  | cons e entries ih =>
    rw [List.map_cons, List.nodup_cons] at distinct
    have here : (Request.numbered e.1 e.2).map (fun e => (e.1, e.2.1)) =
        (List.range' 1 e.2.length).map fun i => (e.1, i) := by
      rw [← List.zipIdx_map_snd, Request.numbered, List.map_map, List.map_map]
      rfl
    rw [List.flatMap_cons, List.map_append, here, List.nodup_append]
    have once : (List.range' 1 e.2.length).Nodup := List.nodup_range'
    refine ⟨once.map fun i j same => (Prod.mk.inj same).2, ih distinct.2, ?_⟩
    rintro _ first _ later rfl
    obtain ⟨i, -, same⟩ := List.mem_map.mp first
    obtain ⟨x, hx, rfl⟩ := List.mem_map.mp later
    obtain ⟨e', he', hx⟩ := List.mem_flatMap.mp hx
    obtain ⟨y, -, rfl⟩ := List.mem_map.mp hx
    obtain ⟨task, -⟩ := Prod.mk.inj same
    exact distinct.1 (task ▸ List.mem_map_of_mem he')

theorem statuses_nodup : ((r.statuses c).map fun e => (e.1, e.2.1)).Nodup := by
  have as_entries : r.statuses c = ((r.statusTasks.map fun t =>
      (t, c.sortByTimestamp (r.statusHistories.get t))).flatMap fun e =>
        Request.numbered e.1 e.2) := by
    rw [List.flatMap_map]
    rfl
  rw [as_entries]
  refine numbered_nodup ?_
  rw [List.map_map]
  show (r.statusTasks.map id).Nodup
  rw [List.map_id]
  exact (List.perm_insertionSort _ _).nodup_iff.mpr (List.nodup_dedup _)

theorem records_nodup : (r.records.map fun e => (e.1, e.2.1)).Nodup :=
  numbered_nodup r.dlqRecords.nodup

theorem status_notMem_keys {past : List (String × Item)} {t : String} {n : Nat} :
    Key.status t n ∉ r.keys c past := by
  induction past with
  | nil => exact notMem_taskKeys rfl
  | cons x past ih =>
    rw [Request.keys, List.mem_append]
    rintro (old | new)
    · exact ih old
    · unfold Builtins.newKeys at new
      split at new <;> simp_all [mem_messageKeys, mem_retryKeys]

/-- An attempt is drawn from the node of its task. -/
theorem listed_of_attempt {t : String} (tasks : TasksListed r c)
    (attempted : c.attemptCount (r.past c) t ≠ 0) : r.listed t = true := by
  obtain ⟨x, hx, this⟩ := List.countP_pos_iff.mp (Nat.pos_of_ne_zero attempted)
  simp only [Bool.and_eq_true, decide_eq_true_eq] at this
  obtain ⟨kind, rfl⟩ := this
  obtain ⟨u, v, split⟩ := List.append_of_mem (List.mem_reverse.mp hx)
  exact tasks u x v split (by simp [Builtins.needsTask, kind])

theorem hasSource_iff {t timestamp : String} (tasks : TasksListed r c) :
    (r.ledger c (r.past c)).hasSource r t timestamp = true ↔
      r.listed t = true ∨ r.topology = .sharedStatusWorkflow ∧
        c.reached (r.past c) none timestamp = true := by
  unfold Ledger.hasSource
  rw [Bool.or_eq_true]
  split
  · rename_i workflow
    simp [workflow, Builtins.reached, Request.ledger]
  · rename_i other
    simp only [other, false_and, or_false, decide_eq_true_eq, or_iff_left_iff_imp]
    exact listed_of_attempt tasks

/-- No key occurs in what comes before it. -/
theorem notMem_of_nodup {α κ : Type} {key : α → κ} {u v : List α} {a : α}
    (distinct : ((u ++ a :: v).map key).Nodup) : key a ∉ u.map key := by
  intro before
  rw [List.map_append, List.nodup_append] at distinct
  exact distinct.2.2 _ before _ (List.mem_map_of_mem List.mem_cons_self) rfl

theorem rounds_statuses (tasks : TasksListed r c) :
    Failing.Rounds (StatusDrawn r c (r.ledger c (r.past c))) [] (r.statuses c) ↔
      (∀ e ∈ r.statuses c, ∃ entries, Builtins.metaOf e.2.2 = .ok entries) ∧
      ∀ e ∈ r.statuses c, r.listed e.1 = true ∨ r.topology = .sharedStatusWorkflow ∧
        c.reached (r.past c) none (c.eventTimestamp e.2.2) = true := by
  rw [Failing.rounds_iff]
  constructor
  · intro drawn
    refine ⟨fun e he => ?_, fun e he => ?_⟩
    all_goals obtain ⟨u, v, split⟩ := List.append_of_mem he
    · exact (drawn u e v split).read
    · exact (hasSource_iff tasks).mp (drawn u e v split).source
  · rintro ⟨metas, sources⟩ u e v split
    have he : e ∈ r.statuses c := by
      rw [split]
      exact List.mem_append_right _ List.mem_cons_self
    refine ⟨metas e he, (hasSource_iff tasks).mpr (sources e he), ?_⟩
    have numbers : ((u ++ e :: v).map fun e => (e.1, e.2.1)).Nodup := split ▸ statuses_nodup
    simp only [Ledger.addStatuses, List.append_nil, List.reverse_reverse, List.mem_append]
    rintro (old | again)
    · exact status_notMem_keys old
    · obtain ⟨e', he', same⟩ := List.mem_map.mp again
      obtain ⟨task, number⟩ := Key.status.inj same
      refine notMem_of_nodup numbers (List.mem_map.mpr ⟨e', he', ?_⟩)
      rw [task, number]

theorem recordKey_inj {e e' : String × Nat × Item} (same : recordKey e = recordKey e') :
    (e.1, e.2.1) = (e'.1, e'.2.1) := by
  obtain ⟨texts, number⟩ := Key.dlq.inj same
  have tasks : e.1 = e'.1 := by
    have chars := congrArg String.toList texts
    rw [String.toList_append, String.toList_append] at chars
    exact String.toList_inj.mp (List.append_cancel_right chars)
  rw [tasks, number]

theorem one_le_of_mem_records {e : String × Nat × Item} (he : e ∈ r.records) : 1 ≤ e.2.1 := by
  obtain ⟨entry, -, he⟩ := List.mem_flatMap.mp he
  obtain ⟨x, hx, rfl⟩ := List.mem_map.mp he
  exact (List.mem_zipIdx hx).1

/-- The id of a record is that of a dead letter observed for another task, or its own. -/
theorem recordKey_notMem {u v : List (String × Nat × Item)} {e : String × Nat × Item}
    (split : r.records = u ++ e :: v) :
    recordKey e ∉ (((r.ledger c (r.past c)).addStatuses c (r.statuses c).reverse).addRecords c
      (u.reverse ++ [])).keys ↔ c.deadLetterCount (r.past c) (e.1 ++ ":record") < e.2.1 := by
  have he : e ∈ r.records := by
    rw [split]
    exact List.mem_append_right _ List.mem_cons_self
  have numbers : ((u ++ e :: v).map fun e => (e.1, e.2.1)).Nodup := split ▸ records_nodup
  have once : recordKey e ∉ u.map recordKey := by
    intro again
    obtain ⟨e', he', same⟩ := List.mem_map.mp again
    exact notMem_of_nodup numbers (List.mem_map.mpr ⟨e', he', recordKey_inj same⟩)
  have no_status : recordKey e ∉ (r.statuses c).map fun e => .status e.1 e.2.1 := by
    intro mem
    obtain ⟨e', -, same⟩ := List.mem_map.mp mem
    cases same
  have observed : recordKey e ∈ r.keys c (r.past c) ↔
      e.2.1 ≤ c.deadLetterCount (r.past c) (e.1 ++ ":record") := by
    rw [recordKey, dlq_mem_keys]
    exact and_iff_right (one_le_of_mem_records he)
  simp only [Ledger.addRecords, Ledger.addStatuses, Request.ledger, List.append_nil,
    List.reverse_reverse, List.mem_append, once, no_status, or_false, observed, not_le]

theorem rounds_records (tasks : TasksListed r c) :
    Failing.Rounds (RecordDrawn r c ((r.ledger c (r.past c)).addStatuses c (r.statuses c).reverse))
      [] r.records ↔ ∀ e ∈ r.records, r.listed e.1 = true ∧
        c.deadLetterCount (r.past c) (e.1 ++ ":record") < e.2.1 := by
  rw [Failing.rounds_iff]
  constructor
  · intro drawn e he
    obtain ⟨u, v, split⟩ := List.append_of_mem he
    obtain ⟨source, new⟩ := drawn u e v split
    exact ⟨source.elim (listed_of_attempt tasks) id, (recordKey_notMem split).mp new⟩
  · intro all u e v split
    have he : e ∈ r.records := by
      rw [split]
      exact List.mem_append_right _ List.mem_cons_self
    exact ⟨Or.inr (all e he).1, (recordKey_notMem split).mpr (all e he).2⟩

end Conditions

/-! ## The end -/

section End

variable {r : Request} {c : Builtins} {b : Build} {g : ExecutionGraph} {L : Ledger}

/-- The ledger of the histories. -/
def finalLedger (r : Request) (c : Builtins) : Ledger :=
  ((r.ledger c (r.past c)).addStatuses c (r.statuses c).reverse).addRecords c r.records.reverse

/-- Every round of the three loops goes on as planned. -/
def LoopsPlanned (r : Request) (c : Builtins) : Prop :=
  Failing.Rounds (Drawn r c) [] (r.observations c) ∧
  Failing.Rounds (StatusDrawn r c (r.ledger c (r.past c))) [] (r.statuses c) ∧
  Failing.Rounds (RecordDrawn r c ((r.ledger c (r.past c)).addStatuses c (r.statuses c).reverse))
    [] r.records

theorem addStatuses_nil : L.addStatuses c [] = L := by
  ext <;> simp [Ledger.addStatuses]

theorem addRecords_nil : L.addRecords c [] = L := by
  ext <;> simp [Ledger.addRecords]

theorem collect_planned (planned : LoopsPlanned r c) :
    ∃ b, r.collect c = .ok b ∧ Described r (finalLedger r c) b := by
  obtain ⟨observations, statuses, records⟩ := planned
  obtain ⟨b₁, done₁, h₁⟩ := (observe_planned r c).goes_on (Described.start r c) observations
  rw [List.append_nil] at h₁
  obtain ⟨b₂, done₂, h₂⟩ := (addStatus_planned r c _).goes_on (h₁.of_eq addStatuses_nil.symm)
    statuses
  rw [List.append_nil] at h₂
  have linked := h₂.linkRetries h₂.links
  obtain ⟨b₃, done₃, h₃⟩ := (addRecord_planned r c _).goes_on (linked.of_eq addRecords_nil.symm)
    records
  rw [List.append_nil] at h₃
  refine ⟨b₃, ?_, h₃⟩
  unfold Request.collect
  rw [done₁, Except.bind, done₂, Except.bind]
  exact done₃

theorem collect_spoiled (unplanned : ¬LoopsPlanned r c) (done : r.collect c = .ok b) :
    ¬b.itemNodes.Nodup := by
  obtain ⟨b₁, done₁, rest⟩ := Failing.bind_ok.mp done
  obtain ⟨b₂, done₂, done₃⟩ := Failing.bind_ok.mp rest
  have links (twice : ¬b₂.itemNodes.Nodup) :
      ¬(b₂.pendingRetryLinks.foldl Builtins.linkRetry b₂).itemNodes.Nodup := by
    rwa [itemNodes_linkRetries]
  by_cases observations : Failing.Rounds (Drawn r c) [] (r.observations c)
  · obtain ⟨b₁', done₁', h₁⟩ := (observe_planned r c).goes_on (Described.start r c) observations
    obtain rfl := Except.ok.inj (done₁.symm.trans done₁')
    rw [List.append_nil] at h₁
    have h₁ := h₁.of_eq (addStatuses_nil (c := c)).symm
    by_cases statuses :
        Failing.Rounds (StatusDrawn r c (r.ledger c (r.past c))) [] (r.statuses c)
    · obtain ⟨b₂', done₂', h₂⟩ := (addStatus_planned r c _).goes_on h₁ statuses
      obtain rfl := Except.ok.inj (done₂.symm.trans done₂')
      rw [List.append_nil] at h₂
      have linked := (h₂.linkRetries h₂.links).of_eq (addRecords_nil (c := c)).symm
      refine (addRecord_planned r c _).spoiled linked (fun records => ?_) done₃
      exact unplanned ⟨observations, statuses, records⟩
    · have twice := (addStatus_planned r c _).spoiled h₁ statuses done₂
      exact (addRecord_planned r c (r.ledger c [])).stays_spoiled (links twice) done₃
  · have twice := (observe_planned r c).spoiled (Described.start r c) observations done₁
    have twice := (addStatus_planned r c (r.ledger c [])).stays_spoiled twice done₂
    exact (addRecord_planned r c (r.ledger c [])).stays_spoiled (links twice) done₃

theorem mem_stamped {s t : String} : s ∈ stamped (some t) ↔ s = t ∧ s ≠ "" := by
  unfold stamped
  rw [Option.mem_toList, Option.filter_eq_some_iff, Option.some.injEq, decide_eq_true_eq,
    eq_comm]

theorem mem_times (h : Described r (finalLedger r c) b) (s : String) :
    s ∈ b.allTimestamps.filter (· ≠ "") ↔ s ∈ r.times c := by
  rw [List.mem_filter, h.times, Request.times, List.mem_filter, and_congr_left_iff]
  intro named
  rw [decide_eq_true_eq] at named
  have status : (∃ e ∈ (r.statuses c).reverse, s ∈ stamped (some (c.eventTimestamp e.2.2))) ↔
      s ∈ (r.statuses c).map (c.eventTimestamp ·.2.2) := by
    simp only [List.mem_reverse, mem_stamped, ne_eq, named, not_false_eq_true, and_true,
      List.mem_map, @eq_comm _ s]
  have record : (∃ e ∈ r.records.reverse, s ∈ stamped (some (c.deadLetteredAt e.2.2))) ↔
      s ∈ r.records.map (c.deadLetteredAt ·.2.2) := by
    simp only [List.mem_reverse, mem_stamped, ne_eq, named, not_false_eq_true, and_true,
      List.mem_map, @eq_comm _ s]
  rw [List.mem_append, List.mem_append, ← status, ← record]
  rfl

theorem finish_wellFormed (h : Described r L b) (done : r.finish c b = .ok g) : WellFormed b g := by
  obtain ⟨summary, summed, rfl⟩ := Failing.map_ok.mp done
  obtain ⟨d, -, rfl⟩ := Failing.map_ok.mp summed
  have ids : List.Perm ((projectLiveState c
      (sortedBy (fun node => [node.timestamp.getD "", node.id]) b.nodes)
      (sortedBy (fun edge => [edge.timestamp.getD "", edge.kind.name, edge.source, edge.target])
        b.edges) (r.latestStatus c)).1.map ExecutionGraphNode.id) b.ids := by
    rw [ids_projectLiveState]
    exact (List.perm_insertionSort _ _).map _
  have nodup : b.ids.Nodup := by
    rw [h.ids]
    exact h.nodup.map Key.render_injective
  refine ⟨fun e he => ?_, ids.nodup_iff.mpr nodup, ?_, fun id hid => ?_, sum_liveStateCounts _⟩
  · obtain ⟨e', he', rfl⟩ := List.mem_map.mp he
    obtain ⟨source, target⟩ := h.ends e' ((List.mem_insertionSort _).mp he')
    exact ⟨ids.mem_iff.mpr source, ids.mem_iff.mpr target⟩
  · rw [h.items]
    exact (h.nodup.filter _).map Key.render_injective
  · refine ids.mem_iff.mpr ?_
    rw [h.items] at hid
    obtain ⟨k, hk, rfl⟩ := List.mem_map.mp hid
    exact h.mem_ids.mpr (List.mem_of_mem_filter hk)

theorem finish_ok_iff (h : Described r (finalLedger r c) b) :
    (∃ g, r.finish c b = .ok g) ↔ ∃ d, c.duration (r.startedAt c) (r.endedAt c) = .ok d := by
  obtain ⟨first, last⟩ := ends_inOrder (mem_times h)
  have span : c.duration (inOrder (b.allTimestamps.filter (· ≠ ""))).head?
      (((r.latestStatus c r.taskId).map c.eventTimestamp).or
        (inOrder (b.allTimestamps.filter (· ≠ ""))).getLast?) =
      c.duration (r.startedAt c) (r.endedAt c) := by
    rw [first, last]
    rfl
  rw [← span]
  constructor
  · rintro ⟨g, done⟩
    obtain ⟨summary, summed, -⟩ := Failing.map_ok.mp done
    obtain ⟨d, hd, -⟩ := Failing.map_ok.mp summed
    exact ⟨d, hd⟩
  · rintro ⟨d, hd⟩
    exact ⟨_, Failing.map_ok.mpr ⟨_, Failing.map_ok.mpr ⟨d, hd, rfl⟩, rfl⟩⟩

theorem loopsPlanned_and_span_iff :
    (LoopsPlanned r c ∧ ∃ d, c.duration (r.startedAt c) (r.endedAt c) = .ok d) ↔
      Drawable r c := by
  unfold LoopsPlanned
  rw [rounds_drawn]
  constructor
  · rintro ⟨⟨⟨tasks, samples, stages⟩, statuses, records⟩, span⟩
    obtain ⟨metas, sources⟩ := (rounds_statuses tasks).mp statuses
    exact ⟨tasks, samples, stages, metas, sources, (rounds_records tasks).mp records, span⟩
  · rintro ⟨tasks, samples, stages, metas, sources, records, span⟩
    exact ⟨⟨⟨tasks, samples, stages⟩, (rounds_statuses tasks).mpr ⟨metas, sources⟩,
      (rounds_records tasks).mpr records⟩, span⟩

end End

/-- The graph of a request is well formed exactly when its histories can be drawn. -/
theorem graph_wellFormed_iff (r : Request) (c : Builtins) :
    (∃ b g, r.collect c = .ok b ∧ r.buildExecutionGraph c = .ok g ∧ WellFormed b g) ↔
      Drawable r c := by
  rw [← loopsPlanned_and_span_iff]
  constructor
  · rintro ⟨b, g, collected, done, formed⟩
    have planned : LoopsPlanned r c := by
      by_contra unplanned
      exact collect_spoiled unplanned collected formed.apart
    obtain ⟨b', collected', h⟩ := collect_planned planned
    obtain rfl := Except.ok.inj (collected.symm.trans collected')
    rw [Request.buildExecutionGraph, collected] at done
    exact ⟨planned, (finish_ok_iff h).mp ⟨g, done⟩⟩
  · rintro ⟨planned, span⟩
    obtain ⟨b, collected, h⟩ := collect_planned planned
    obtain ⟨g, done⟩ := (finish_ok_iff h).mpr span
    refine ⟨b, g, collected, ?_, finish_wellFormed h done⟩
    rw [Request.buildExecutionGraph, collected]
    exact done

/-- Two samples of a task with one time; `memory` tells them apart. -/
def sampleAt (memory : Nat) : Item :=
  [("event_type", .str "TaskResourceSampled"), ("timestamp", .str "2024-01-01T00:00:00+00:00"),
    ("sample_kind", .str "interval"), ("memory_rss_bytes", .int memory)]

def twoSamples : Request where
  topology := .sharedTasksSharedStatus
  taskId := "task-1"
  statusHistories := .empty
  observationHistories := .single "task-1" [sampleAt 1, sampleAt 2]
  dlqRecords := .empty
  relatedTaskIds := []

def plainBuiltins : Builtins where
  text := plainText
  lower s := String.ofList (s.toList.map Char.toLower)
  isoformat n := toString n
  fromisoformat s :=
    if s = "2024-01-01T00:00:00+00:00" then some ⟨1704067200000000, some 0⟩ else none
  milliseconds n := n / 1000

section TwoSamples

variable (memory : Nat)

theorem sampleAt_timestamp : (sampleAt memory).lookup "timestamp" =
    some (.str "2024-01-01T00:00:00+00:00") := rfl

theorem sampleAt_event_id : (sampleAt memory).lookup "event_id" = none := rfl

theorem sampleAt_event_type : (sampleAt memory).lookup "event_type" =
    some (.str "TaskResourceSampled") := rfl

theorem sampleAt_sample_kind : (sampleAt memory).lookup "sample_kind" =
    some (.str "interval") := rfl

theorem sampleAt_eventKind : plainBuiltins.eventKind (sampleAt memory) = .resourceSampled := by
  simp [Builtins.eventKind, sampleAt_event_type, Builtins.textOr, Value.truthy, plainBuiltins,
    plainText, EventKind.ofType]

theorem sampleAt_text (size : Nat) : plainBuiltins.sampleText size ("task-1", sampleAt memory) =
    plainBuiltins.sampleText 0 ("task-1", sampleAt 0) := by
  simp [Builtins.sampleText, Builtins.sampleKind, Builtins.eventTimestamp, sampleAt_timestamp,
    sampleAt_sample_kind, orNone, Builtins.coerceTimestamp, plainBuiltins, plainText]

theorem twoSamples_past : twoSamples.past plainBuiltins =
    [("task-1", sampleAt 2), ("task-1", sampleAt 1)] := by
  have sorted : plainBuiltins.sortByTimestamp [sampleAt 1, sampleAt 2] =
      [sampleAt 1, sampleAt 2] := by
    unfold Builtins.sortByTimestamp sortedBy
    simp [List.insertionSort, sampleAt_timestamp, sampleAt_event_id]
  simp [Request.past, Request.observations, twoSamples, sorted]

end TwoSamples

theorem two_samples_share_a_node :
    ¬∃ b g, twoSamples.collect plainBuiltins = .ok b ∧
      twoSamples.buildExecutionGraph plainBuiltins = .ok g ∧ WellFormed b g := by
  rintro ⟨b, g, collected, -, formed⟩
  refine collect_spoiled (fun planned => ?_) collected formed.apart
  obtain ⟨-, samples, -⟩ := rounds_drawn.mp planned.1
  rw [twoSamples_past] at samples
  simp [Request.sampleTexts, sampleAt_eventKind, sampleAt_text] at samples

end Relayna.Observability.Execution
