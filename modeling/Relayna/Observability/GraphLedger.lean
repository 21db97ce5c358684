import Mathlib.Data.Set.Basic
import Relayna.Observability.GraphKeys

/-!
# What a graph that is built so far describes

A ledger lists what has been drawn: the keys of the nodes, the numbers that are given out next and
the times that are recorded. `Described` says that a graph under construction is the graph of a
ledger. It is kept by each of the few things that the loops of `build_execution_graph` do to the
graph, with the entry that belongs to it.
-/
namespace Relayna.Observability.Execution

open Python Contracts Names

@[ext]
structure Ledger where
  keys : List Key
  attempts : String → Nat
  stageKeys : List (String × Nat)
  receptions : List (String × String)
  messages : String → Bool
  retries : String → Nat
  deadLetters : String → Nat
  times : Set String

namespace Ledger

variable (L : Ledger)

def addEdge (e : ExecutionGraphEdge) : Ledger :=
  { L with
    retries := fun t => L.retries t + if Builtins.retried t e then 1 else 0
    times := L.times ∪ {s | s ∈ stamped e.timestamp} }

/-- A node with a key of its own. -/
def addNode (k : Key) (n : ExecutionGraphNode) : Ledger :=
  { L with
    keys := L.keys ++ [k]
    deadLetters := fun t =>
      L.deadLetters t + if n.kind = .dlqRecord ∧ n.taskId = some t then 1 else 0
    times := L.times ∪ {s | s ∈ stamped n.timestamp} }

def noteAttempt (t : String) : Ledger :=
  { L with attempts := Function.update L.attempts t (L.attempts t + 1) }

def noteStage (text : String) (number : Nat) (stage timestamp : String) : Ledger :=
  { L with
    stageKeys := L.stageKeys ++ [(text, number)]
    receptions := L.receptions ++ [(stage, timestamp)] }

def noteMessage (m : String) : Ledger :=
  { L with messages := Function.update L.messages m true }

end Ledger

def Build.ids (b : Build) : List String := b.nodes.map ExecutionGraphNode.id

/-- The stage that a node is annotated with, and its time. -/
def ExecutionGraphNode.stageView (node : ExecutionGraphNode) : Option String × Option String :=
  (match node.annotations.lookup "stage" with
    | some (.value (.str s)) => some s
    | _ => none, node.timestamp)

structure Described (r : Request) (L : Ledger) (b : Build) : Prop where
  ids : b.ids = L.keys.map Key.render
  items : b.itemNodes = (L.keys.filter Key.isItem).map Key.render
  nodup : L.keys.Nodup
  owned : ∀ n ∈ b.nodes, n.taskId.isSome = true
  ends : ∀ e ∈ b.edges, e.source ∈ b.ids ∧ e.target ∈ b.ids
  tasks : ∀ t, b.taskNodeIds.lookup t = if r.listed t then some (r.taskKey t).render else none
  taskKeys : ∀ t, r.listed t = true → r.taskKey t ∈ L.keys
  attempts : ∀ t, b.attemptsByTask t =
    (List.range (L.attempts t)).map fun i => (Key.attempt t (i + 1)).render
  attemptKeys : ∀ t i, i < L.attempts t → .attempt t (i + 1) ∈ L.keys
  attemptTimes : ∀ t, ∀ n ∈ b.attempts t, ∀ s ∈ stamped n.timestamp, s ∈ L.times
  stageAttempts : b.stageAttempts = L.stageKeys.map fun k => (Key.stage k.1 k.2).render
  stageKeys : ∀ k ∈ L.stageKeys, .stage k.1 k.2 ∈ L.keys
  stages : b.stages.map ExecutionGraphNode.stageView =
    L.receptions.map fun e => (some e.1, some e.2)
  messages : ∀ m, m ≠ "" →
    b.workflowMessageNodes m = if L.messages m then some (Key.message m).render else none
  messageKeys : ∀ m, m ≠ "" → L.messages m = true → .message m ∈ L.keys
  retries : ∀ t, b.edges.countP (Builtins.retried t) = L.retries t
  deadLetters : ∀ t,
    b.nodes.countP (fun n => n.kind = .dlqRecord && n.taskId = some t) = L.deadLetters t
  times : ∀ s, s ∈ b.allTimestamps ↔ s ∈ L.times
  links : ∀ l ∈ b.pendingRetryLinks, l.retryNodeId ∈ b.ids

section Nodes

variable {b : Build} {n : ExecutionGraphNode} {id : String}

theorem Build.node?_of_mem (h : id ∈ b.ids) : ∃ n ∈ b.nodes, b.node? id = some n ∧ n.id = id := by
  obtain ⟨n, hn, rfl⟩ := List.mem_map.mp h
  have found : (b.node? n.id).isSome = true := by
    rw [Build.node?, Keyed.get?, List.find?_isSome]
    exact ⟨n, hn, by simp⟩
  obtain ⟨m, hm⟩ := Option.isSome_iff_exists.mp found
  exact ⟨m, Keyed.mem_of_get? hm, hm, Keyed.key_of_get? hm⟩

theorem Build.node?_addNode (other : id ≠ n.id) : (b.addNode n).node? id = b.node? id := by
  unfold Build.addNode
  split
  · have keeps (m : ExecutionGraphNode) : (m.merge n).id = m.id := rfl
    simp only [Build.node?]
    rw [Keyed.get?_amend keeps, if_neg other]
  · simp only [Build.node?, Keyed.get?, List.find?_append, List.find?_singleton,
      decide_eq_true_eq, if_neg other.symm, Option.or_none]

theorem Build.filterMap_addNode {l : List String} (other : n.id ∉ l) :
    l.filterMap (b.addNode n).node? = l.filterMap b.node? := by
  refine List.filterMap_congr fun id hid => Build.node?_addNode ?_
  rintro rfl
  exact other hid

theorem Build.addNode_new (new : n.id ∉ b.ids) : b.addNode n = { b with
    nodes := b.nodes ++ [n]
    allTimestamps := b.allTimestamps ++ stamped n.timestamp
    taskTypes := b.taskTypes ++ ((taskTypeOf n).filter (· ∉ b.taskTypes)).toList } := if_neg new

theorem Build.addNode_old (old : n.id ∈ b.ids) : b.addNode n = { b with
    nodes := Keyed.amend ExecutionGraphNode.id n.id (·.merge n) b.nodes } := if_pos old

theorem Build.node?_addNode_new (new : n.id ∉ b.ids) : (b.addNode n).node? n.id = some n := by
  rw [Build.addNode_new new]
  have absent : b.nodes.find? (fun m => m.id = n.id) = none := by
    rw [List.find?_eq_none]
    intro m hm same
    exact new (List.mem_map.mpr ⟨m, hm, by simpa using same⟩)
  simp [Build.node?, Keyed.get?, List.find?_append, absent]

end Nodes

theorem mem_of_latestAttempt {l : List ExecutionGraphNode} {timestamp : Option String}
    {n : ExecutionGraphNode} (h : latestAttempt l timestamp = some n) : n ∈ l := by
  unfold latestAttempt at h
  split at h
  · exact List.mem_of_getLast? h
  · rcases Option.or_eq_some_iff.mp h with last | ⟨-, first⟩
    · exact List.mem_of_mem_filter (List.mem_of_getLast? last)
    · exact List.mem_of_head? first

theorem latestAttempt_eq_none {l : List ExecutionGraphNode} {timestamp : Option String} :
    latestAttempt l timestamp = none ↔ l = [] := by
  unfold latestAttempt
  split
  · exact List.getLast?_eq_none_iff
  · rw [Option.or_eq_none_iff, List.getLast?_eq_none_iff, List.head?_eq_none_iff]
    exact ⟨And.right, fun empty => ⟨by simp [empty], empty⟩⟩

theorem mem_of_latestStageAttempt {l : List ExecutionGraphNode} {stage timestamp : Option String}
    {n : ExecutionGraphNode} (h : latestStageAttempt l stage timestamp = some n) : n ∈ l :=
  List.mem_of_mem_filter (List.mem_of_getLast? h)

namespace Described

variable {r : Request} {L : Ledger} {b : Build} {k : Key} {n : ExecutionGraphNode}
  {t id : String}

theorem mem_ids (h : Described r L b) : k.render ∈ b.ids ↔ k ∈ L.keys := by
  rw [h.ids]
  exact List.mem_map_of_injective Key.render_injective

/-- Another node than those of the attempts. -/
theorem notMem_attempts (h : Described r L b) (other : ∀ t i, k ≠ .attempt t i) :
    k.render ∉ b.attemptsByTask t := by
  rw [h.attempts, List.mem_map]
  rintro ⟨i, -, same⟩
  exact other t (i + 1) (Key.render_injective same).symm

theorem notMem_stages (h : Described r L b) (other : ∀ s i, k ≠ .stage s i) :
    k.render ∉ b.stageAttempts := by
  rw [h.stageAttempts, List.mem_map]
  rintro ⟨e, -, same⟩
  exact other e.1 e.2 (Key.render_injective same).symm

theorem attempts_eq_nil (h : Described r L b) : b.attempts t = [] ↔ L.attempts t = 0 := by
  rw [Build.attempts, List.filterMap_eq_nil_iff, h.attempts]
  constructor
  · intro none_found
    by_contra pos
    have first := none_found _ (List.mem_map_of_mem (List.mem_range.mpr (Nat.pos_of_ne_zero pos)))
    obtain ⟨m, -, found, -⟩ := Build.node?_of_mem
      (h.mem_ids.mpr (h.attemptKeys t 0 (Nat.pos_of_ne_zero pos)))
    rw [first] at found
    cases found
  · intro zero
    simp [zero]

theorem mem_ids_of_filterMap {l : List String} (hn : n ∈ l.filterMap b.node?) : n.id ∈ b.ids := by
  obtain ⟨id, -, found⟩ := List.mem_filterMap.mp hn
  exact List.mem_map_of_mem (Keyed.mem_of_get? found)

/-- An attempt that an edge is drawn from. -/
theorem latestAttempt_cases (h : Described r L b) (timestamp : Option String) :
    (L.attempts t ≠ 0 ∧ ∃ n, latestAttempt (b.attempts t) timestamp = some n ∧ n.id ∈ b.ids) ∨
      (L.attempts t = 0 ∧ latestAttempt (b.attempts t) timestamp = none) := by
  cases found : latestAttempt (b.attempts t) timestamp with
  | none => exact Or.inr ⟨h.attempts_eq_nil.mp (latestAttempt_eq_none.mp found), rfl⟩
  | some n =>
    refine Or.inl ⟨fun none_yet => ?_, n, rfl, mem_ids_of_filterMap (mem_of_latestAttempt found)⟩
    rw [latestAttempt_eq_none.mpr (h.attempts_eq_nil.mpr none_yet)] at found
    cases found

theorem hasStage_iff {stage : String} :
    n.hasStage stage = true ↔ n.stageView.1 = some stage := by
  unfold ExecutionGraphNode.hasStage ExecutionGraphNode.stageView
  cases n.annotations.lookup "stage" with
  | none => simp
  | some a =>
    cases a with
    | mapping entries => simp [AnnotationValue.isText]
    | value v => cases v <;> simp [AnnotationValue.isText]

/-- A stage attempt that an edge is drawn from. -/
theorem latestStageAttempt_cases (h : Described r L b) (stage : Option String)
    (timestamp : String) :
    (L.receptions.any (fun e => stage.all (e.1 = ·) && e.2 ≤ timestamp) = true ∧
      ∃ n, latestStageAttempt b.stages stage (some timestamp) = some n ∧ n.id ∈ b.ids) ∨
    (L.receptions.any (fun e => stage.all (e.1 = ·) && e.2 ≤ timestamp) = false ∧
      latestStageAttempt b.stages stage (some timestamp) = none) := by
  -- The test reads no more of a node than its view.
  let test (v : Option String × Option String) : Bool :=
    stage.all (v.1 = some ·) && v.2.getD "" ≤ timestamp
  have views : b.stages.any (fun n => stage.all n.hasStage && n.timestamp.getD "" ≤ timestamp) =
      L.receptions.any (fun e => stage.all (e.1 = ·) && e.2 ≤ timestamp) := by
    have stages := congrArg (List.any · test) h.stages
    simp only [List.any_map] at stages
    have left : (fun n : ExecutionGraphNode =>
        stage.all n.hasStage && decide (n.timestamp.getD "" ≤ timestamp)) =
          test ∘ ExecutionGraphNode.stageView := by
      funext n
      have same : n.hasStage = fun s => decide (n.stageView.1 = some s) := by
        funext s
        rw [Bool.eq_iff_iff, hasStage_iff, decide_eq_true_eq]
      simp only [test, Function.comp, same]
      rfl
    rw [left, stages]
    simp [test, Function.comp_def]
  rw [← views]
  cases found : latestStageAttempt b.stages stage (some timestamp) with
  | none =>
    refine Or.inr ⟨?_, rfl⟩
    rw [latestStageAttempt, List.getLast?_eq_none_iff, List.filter_eq_nil_iff] at found
    rw [List.any_eq_false]
    exact found
  | some n =>
    refine Or.inl ⟨?_, n, rfl, mem_ids_of_filterMap (mem_of_latestStageAttempt found)⟩
    have kept := List.mem_of_getLast? found
    rw [List.mem_filter] at kept
    exact List.any_eq_true.mpr ⟨n, kept⟩

theorem countP_hasStage (h : Described r L b) (stage : String) :
    b.stages.countP (·.hasStage stage) = L.receptions.countP (·.1 = stage) := by
  have stages := congrArg (List.countP fun v => decide (v.1 = some stage)) h.stages
  simp only [List.countP_map] at stages
  have left : (fun n : ExecutionGraphNode => n.hasStage stage) =
      (fun v => decide (v.1 = some stage)) ∘ ExecutionGraphNode.stageView := by
    funext n
    rw [Bool.eq_iff_iff, hasStage_iff, Function.comp, decide_eq_true_eq]
  rw [left, stages]
  simp [Function.comp_def]

/-! ### What is done to the graph -/

theorem addEdge {e : ExecutionGraphEdge} (h : Described r L b) (source : e.source ∈ b.ids)
    (target : e.target ∈ b.ids) : Described r (L.addEdge e) (b.addEdge e) :=
  { h with
    ends := by
      intro e' he'
      rcases List.mem_append.mp he' with old | new
      · exact h.ends e' old
      · rw [List.mem_singleton.mp new]
        exact ⟨source, target⟩
    retries := by
      intro t
      show (b.edges ++ [e]).countP _ = _
      rw [List.countP_append, h.retries, List.countP_singleton]
      rfl
    attemptTimes := fun t n hn s hs => Or.inl (h.attemptTimes t n hn s hs)
    times := by
      intro s
      show s ∈ b.allTimestamps ++ _ ↔ _
      rw [List.mem_append, h.times]
      rfl }

/-- A node with a key that there is none for yet. -/
theorem add {items : List String} (h : Described r L b) (named : n.id = k.render)
    (new : k ∉ L.keys) (owned : n.taskId.isSome = true)
    (given : items = ((L.keys ++ [k]).filter Key.isItem).map Key.render) :
    Described r (L.addNode k n) { b.addNode n with itemNodes := items } := by
  have fresh : n.id ∉ b.ids := by rwa [named, h.mem_ids]
  have attempts (t : String) :
      (b.attemptsByTask t).filterMap (b.addNode n).node? = b.attempts t := by
    refine Build.filterMap_addNode ?_
    rw [named, h.attempts, List.mem_map]
    rintro ⟨i, hi, same⟩
    exact new (Key.render_injective same ▸ h.attemptKeys t i (List.mem_range.mp hi))
  have stages : b.stageAttempts.filterMap (b.addNode n).node? = b.stages := by
    refine Build.filterMap_addNode ?_
    rw [named, h.stageAttempts, List.mem_map]
    rintro ⟨e, he, same⟩
    exact new (Key.render_injective same ▸ h.stageKeys e he)
  rw [Build.addNode_new fresh] at attempts stages ⊢
  have ids : (b.nodes ++ [n]).map ExecutionGraphNode.id = b.ids ++ [k.render] := by
    rw [List.map_append, ← named]
    rfl
  have grows {id : String} (old : id ∈ b.ids) :
      id ∈ (b.nodes ++ [n]).map ExecutionGraphNode.id := by
    rw [ids]
    exact List.mem_append_left _ old
  exact
    { h with
      ids := by
        show (b.nodes ++ [n]).map ExecutionGraphNode.id = _
        rw [ids, h.ids]
        simp [Ledger.addNode]
      items := given
      nodup := List.nodup_append.mpr ⟨h.nodup, List.nodup_singleton k, fun l hl m hm same =>
        new (List.mem_singleton.mp hm ▸ same ▸ hl)⟩
      owned := by
        intro m hm
        rcases List.mem_append.mp hm with old | here
        · exact h.owned m old
        · exact List.mem_singleton.mp here ▸ owned
      ends := fun e he => ⟨grows (h.ends e he).1, grows (h.ends e he).2⟩
      taskKeys := fun t ht => List.mem_append_left _ (h.taskKeys t ht)
      attemptKeys := fun t i hi => List.mem_append_left _ (h.attemptKeys t i hi)
      attemptTimes := fun t m hm s hs =>
        Or.inl (h.attemptTimes t m (attempts t ▸ hm) s hs)
      stageKeys := fun e he => List.mem_append_left _ (h.stageKeys e he)
      stages := (congrArg (List.map _) stages).trans h.stages
      messageKeys := fun m named hm => List.mem_append_left _ (h.messageKeys m named hm)
      deadLetters := by
        intro t
        show (b.nodes ++ [n]).countP _ = _
        rw [List.countP_append, h.deadLetters, List.countP_singleton]
        simp [Ledger.addNode]
      times := by
        intro s
        show s ∈ b.allTimestamps ++ _ ↔ _
        rw [List.mem_append, h.times]
        rfl
      links := fun l hl => grows (h.links l hl) }

theorem addItem (h : Described r L b) (named : n.id = k.render) (new : k ∉ L.keys)
    (owned : n.taskId.isSome = true) (item : k.isItem = true) :
    Described r (L.addNode k n) (b.addItem n) :=
  h.add named new owned (by simp [h.items, item, named])

theorem addNode (h : Described r L b) (named : n.id = k.render) (new : k ∉ L.keys)
    (owned : n.taskId.isSome = true) (plain : k.isItem = false) :
    Described r (L.addNode k n) (b.addNode n) := by
  have same : { b.addNode n with itemNodes := b.itemNodes } = b.addNode n := by
    rw [Build.addNode_new (by rwa [named, h.mem_ids])]
  exact same ▸ h.add named new owned (by simp [h.items, plain])

/-- A node that is merged into the one there is. -/
theorem merge (h : Described r L b) (named : n.id = k.render) (old : k ∈ L.keys)
    (no_attempt : ∀ t i, k ≠ .attempt t i) (no_stage : ∀ s i, k ≠ .stage s i) :
    Described r L (b.addNode n) := by
  have present : n.id ∈ b.ids := by rwa [named, h.mem_ids]
  have attempts (t : String) :
      (b.attemptsByTask t).filterMap (b.addNode n).node? = b.attempts t :=
    Build.filterMap_addNode (named ▸ h.notMem_attempts no_attempt)
  have stages : b.stageAttempts.filterMap (b.addNode n).node? = b.stages :=
    Build.filterMap_addNode (named ▸ h.notMem_stages no_stage)
  rw [Build.addNode_old present] at attempts stages ⊢
  have ids : (Keyed.amend ExecutionGraphNode.id n.id (·.merge n) b.nodes).map
      ExecutionGraphNode.id = b.ids := Keyed.map_key_amend fun _ => rfl
  have keepsOwner (m : ExecutionGraphNode) (hm : m ∈ b.nodes) : (m.merge n).taskId = m.taskId := by
    obtain ⟨t, ht⟩ := Option.isSome_iff_exists.mp (h.owned m hm)
    simp [ExecutionGraphNode.merge, ht]
  exact
    { h with
      ids := ids.trans h.ids
      owned := Keyed.forall_mem_amend h.owned fun m found => by
        rw [keepsOwner m (Keyed.mem_of_get? found)]
        exact h.owned m (Keyed.mem_of_get? found)
      ends := fun e he => by
        show _ ∈ List.map _ _ ∧ _ ∈ List.map _ _
        rw [ids]
        exact h.ends e he
      attemptTimes := fun t m hm => h.attemptTimes t m (attempts t ▸ hm)
      stages := (congrArg (List.map _) stages).trans h.stages
      deadLetters := by
        intro t
        obtain ⟨m, hm, found, -⟩ := Build.node?_of_mem present
        have count := Keyed.countP_amend (g := (·.merge n))
          (p := fun n => n.kind = .dlqRecord && n.taskId = some t) found
        rw [keepsOwner m hm, show (m.merge n).kind = m.kind from rfl] at count
        show (Keyed.amend _ _ _ _).countP _ = _
        rw [← h.deadLetters t]
        omega
      links := fun l hl => by
        show _ ∈ List.map _ _
        rw [ids]
        exact h.links l hl }

/-- The next attempt of the task is listed. -/
theorem noteAttempt (h : Described r L b) (key : .attempt t (L.attempts t + 1) ∈ L.keys)
    (named : id = (Key.attempt t (L.attempts t + 1)).render) (found : b.node? id = some n)
    (recorded : ∀ s ∈ stamped n.timestamp, s ∈ L.times) :
    Described r (L.noteAttempt t)
      { b with
        attemptsByTask := Function.update b.attemptsByTask t (b.attemptsByTask t ++ [id]) } :=
  { h with
    attempts := by
      intro t'
      by_cases same : t' = t
      · subst same
        simp only [Ledger.noteAttempt, Function.update_self, h.attempts, List.range_succ,
          List.map_append, named, List.map_singleton]
      · simp only [Ledger.noteAttempt, Function.update_of_ne same, h.attempts]
    attemptKeys := by
      intro t' i hi
      change i < Function.update L.attempts t _ t' at hi
      by_cases same : t' = t
      · subst same
        rw [Function.update_self] at hi
        rcases Nat.lt_succ_iff_lt_or_eq.mp hi with old | rfl
        · exact h.attemptKeys t' i old
        · exact key
      · rw [Function.update_of_ne same] at hi
        exact h.attemptKeys t' i hi
    attemptTimes := by
      intro t' m hm s hs
      obtain ⟨i, hi, hm⟩ := List.mem_filterMap.mp hm
      change i ∈ Function.update b.attemptsByTask t _ t' at hi
      by_cases same : t' = t
      · subst same
        rw [Function.update_self] at hi
        rcases List.mem_append.mp hi with old | new
        · exact h.attemptTimes t' m (List.mem_filterMap.mpr ⟨i, old, hm⟩) s hs
        · obtain rfl := List.mem_singleton.mp new
          obtain rfl := Option.some.inj (hm.symm.trans found)
          exact recorded s hs
      · rw [Function.update_of_ne same] at hi
        exact h.attemptTimes t' m (List.mem_filterMap.mpr ⟨i, hi, hm⟩) s hs }

/-- A stage attempt is listed. -/
theorem noteStage {text stage timestamp : String} {number : Nat} (h : Described r L b)
    (key : .stage text number ∈ L.keys) (named : id = (Key.stage text number).render)
    (found : b.node? id = some n) (view : n.stageView = (some stage, some timestamp)) :
    Described r (L.noteStage text number stage timestamp)
      { b with stageAttempts := b.stageAttempts ++ [id] } :=
  { h with
    stageAttempts := by simp [Ledger.noteStage, h.stageAttempts, named]
    stageKeys := by
      intro e he
      rcases List.mem_append.mp he with old | new
      · exact h.stageKeys e old
      · rw [List.mem_singleton.mp new]
        exact key
    stages := by
      have last : [id].filterMap b.node? = [n] := by simp [found]
      show ((b.stageAttempts ++ [id]).filterMap b.node?).map _ = _
      rw [Ledger.noteStage, List.filterMap_append, last, List.map_append, List.map_append,
        List.map_singleton, view]
      exact congrArg (· ++ _) h.stages }

theorem noteMessage {m : String} (h : Described r L b) (key : .message m ∈ L.keys) :
    Described r (L.noteMessage m)
      { b with
        workflowMessageNodes :=
          Function.update b.workflowMessageNodes m (some (Key.message m).render) } :=
  { h with
    messages := by
      intro m' named
      by_cases same : m' = m
      · subst same
        simp [Ledger.noteMessage]
      · simp only [Ledger.noteMessage, Function.update_of_ne same]
        exact h.messages m' named
    messageKeys := by
      intro m' named hm
      change Function.update L.messages m true m' = true at hm
      by_cases same : m' = m
      · exact same ▸ key
      · rw [Function.update_of_ne same] at hm
        exact h.messageKeys m' named hm }

theorem noteLink {l : PendingRetryLink} (h : Described r L b) (present : l.retryNodeId ∈ b.ids) :
    Described r L { b with pendingRetryLinks := b.pendingRetryLinks ++ [l] } :=
  { h with
    links := by
      intro l' hl'
      rcases List.mem_append.mp hl' with old | new
      · exact h.links l' old
      · exact List.mem_singleton.mp new ▸ present }

end Described

end Relayna.Observability.Execution
