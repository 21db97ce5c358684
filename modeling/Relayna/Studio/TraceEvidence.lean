import Relayna.Contracts.Aliases
import Relayna.Foundation.Gathering
import Relayna.Foundation.Names
import Relayna.Studio.TracePaths

/-!
# Trace paths lose no evidence

The builders of a trace path put each message, event and span on one node, and every edge ends at
nodes that are there.
-/
namespace Relayna.Studio.TracePaths

open Python Contracts Doubles ProviderAnswers ProviderAnswers.Tempo Gathering

/-! ## References -/

/-- What is found, if anything, is one of the nodes. -/
def Drawn (refs : List Ref) (found : Option Ref) : Prop := ∀ r ∈ found, r ∈ refs

section Drawn

variable {refs : List Ref} {a b : Option Ref}

theorem Drawn.or (ha : Drawn refs a) (hb : Drawn refs b) : Drawn refs (a.or b) := by
  cases a with
  | none => simpa using hb
  | some r => simpa using ha

theorem Drawn.bind {α : Type} {x : Option α} {f : α → Option Ref}
    (h : ∀ v, Drawn refs (f v)) : Drawn refs (x.bind f) := by
  cases x with
  | none => simp [Drawn]
  | some v => exact h v

theorem Drawn.ite {p : Prop} [Decidable p] (ha : Drawn refs a) :
    Drawn refs (if p then a else none) := by
  split
  · exact ha
  · simp [Drawn]

theorem Drawn.of_filter {p : Ref → Bool} (ha : Drawn (refs.filter p) a) : Drawn refs a :=
  fun r hr => List.mem_of_mem_filter (ha r hr)

theorem drawn_firstNode {kind queueName stage : Option String} :
    Drawn refs (Builtins.firstNode refs kind queueName stage) :=
  fun _ hr => List.mem_of_find?_eq_some hr

theorem drawn_head? : Drawn refs refs.head? := fun _ hr => List.mem_of_head? hr

end Drawn

namespace Builtins

variable {c : Builtins} {taskId : String} {nodes : List StudioTracePathNode}

theorem drawn_bestNodeForDlq {item : Fields Value} :
    Drawn nodes.zipIdx (c.bestNodeForDlq nodes item) := by
  apply Drawn.of_filter
  exact (Drawn.bind fun _ => drawn_firstNode).or drawn_head?

theorem drawn_bestNodeForSpan {span : StudioTraceSpan} :
    Drawn nodes.zipIdx (c.bestNodeForSpan nodes span taskId) := by
  apply Drawn.of_filter
  refine (Drawn.bind fun _ => Drawn.or ?_ drawn_firstNode).or
    ((Drawn.bind fun _ => drawn_firstNode).or (Drawn.or ?_ drawn_firstNode.ite))
  · exact drawn_firstNode.ite
  · exact (drawn_firstNode.or drawn_firstNode).ite

theorem eventCandidates_subset : eventCandidates nodes taskId ⊆ nodes.zipIdx := by
  unfold eventCandidates
  dsimp only
  split
  · exact fun _ hr => hr
  · exact fun _ hr => List.mem_of_mem_filter hr

theorem bestNodeForEvent_ok {eventType : String} {payload : Fields Value} {r : Ref}
    (h : c.bestNodeForEvent nodes taskId eventType payload = .ok r) : r ∈ nodes.zipIdx := by
  unfold bestNodeForEvent at h
  dsimp only at h
  split at h
  · next found =>
    obtain rfl := Except.ok.inj h
    refine eventCandidates_subset (Drawn.or ?_ drawn_head? _ found)
    exact drawn_firstNode.ite.or (drawn_firstNode.ite.or
      ((Drawn.bind fun _ => drawn_firstNode).or (Drawn.bind fun _ => drawn_firstNode)))
  · cases h

/-! ## One step of each builder -/

/-- What has become of nodes that took up evidence. -/
abbrev Gathers (before after : List StudioTracePathNode) (evidence : List StudioTracePathEvidence)
    (names : List String) : Prop :=
  Gathered StudioTracePathNode.id StudioTracePathNode.evidence before after evidence names

/-- Every edge ends at nodes that are there. -/
def Joined (path : Path) : Prop :=
  ∀ e ∈ path.edges, e.source ∈ path.nodes.map StudioTracePathNode.id ∧
    e.target ∈ path.nodes.map StudioTracePathNode.id

theorem mem_latestNonDlqNode {before : Option String} {node : StudioTracePathNode}
    (h : c.latestNonDlqNode nodes taskId before = some node) : node ∈ nodes := by
  have mem := List.mem_of_getLast? h
  rw [sortedNodes, List.mem_insertionSort] at mem
  split at mem
  · exact List.mem_of_mem_filter mem
  · exact List.mem_of_mem_filter (List.mem_of_mem_filter mem)

/-- The evidence goes to a node that is there, or to a node of its own and maybe an edge to it. -/
theorem attachDlqMessage_ok {path path' : Path} {entry : Fields Value × Nat}
    (h : c.attachDlqMessage taskId path entry = .ok path') :
    (∃ r ∈ path.nodes.zipIdx, path' = { path with
      nodes := path.nodes.modify r.2 (giveDlq (c.dlqEvidence taskId entry.1 entry.2)) }) ∨
    ∃ node : StudioTracePathNode, node.id = dlqNodeId taskId entry.2 ∧
      node.evidence = [c.dlqEvidence taskId entry.1 entry.2] ∧
      node.startedAt = string c.text (entry.1.lookup "dead_lettered_at") ∧ node.endedAt = none ∧
      path'.nodes = path.nodes ++ [node] ∧
      ∃ edges, path'.edges = path.edges ++ edges ∧ ∀ e ∈ edges, e.kind = "dead_lettered_to" ∧
        e.source ∈ path'.nodes.map StudioTracePathNode.id ∧ e.target = node.id := by
  unfold attachDlqMessage at h
  dsimp only at h
  split at h
  · next target found =>
    exact .inl ⟨target, drawn_bestNodeForDlq _ found, (Except.ok.inj h).symm⟩
  · obtain ⟨attempt, -, h⟩ := Failing.bind_ok.mp h
    obtain rfl := Except.ok.inj h
    refine .inr ⟨_, rfl, rfl, rfl, rfl, rfl, _, rfl, ?_⟩
    intro e mem
    simp only [Option.mem_toList, Option.mem_def, Option.map_eq_some_iff] at mem
    obtain ⟨source, found, rfl⟩ := mem
    exact ⟨rfl, List.mem_map_of_mem (mem_latestNonDlqNode found), rfl⟩

theorem attachDlqMessage_gathers {path path' : Path} {entry : Fields Value × Nat}
    (h : c.attachDlqMessage taskId path entry = .ok path') :
    Gathers path.nodes path'.nodes [c.dlqEvidence taskId entry.1 entry.2]
      [dlqNodeId taskId entry.2] := by
  rcases attachDlqMessage_ok h with ⟨r, mem, rfl⟩ | ⟨node, named, taken, -, -, nodes, -⟩
  · exact .of_modify (List.mem_zipIdx_iff_getElem?.mp mem) rfl rfl
  · rw [nodes, ← named]
    exact .of_concat taken

theorem attachDlqMessage_joined {path path' : Path} {entry : Fields Value × Nat}
    (h : c.attachDlqMessage taskId path entry = .ok path') (joined : Joined path) :
    Joined path' := by
  have kept := (attachDlqMessage_gathers h).map_subset
  rcases attachDlqMessage_ok h with ⟨r, -, rfl⟩ | ⟨node, -, -, -, -, nodes, edges, eq, new⟩
  · exact fun e mem => ⟨kept (joined e mem).1, kept (joined e mem).2⟩
  · intro e mem
    rw [eq, List.mem_append] at mem
    rcases mem with old | added
    · exact ⟨kept (joined e old).1, kept (joined e old).2⟩
    · obtain ⟨-, source, target⟩ := new e added
      refine ⟨source, ?_⟩
      rw [target, nodes]
      simp

theorem attachEvent_ok {nodes' : List StudioTracePathNode} {item : Fields Value}
    (h : c.attachEvent taskId nodes item = .ok nodes') :
    ∃ r ∈ nodes.zipIdx, nodes' = nodes.modify r.2 (c.giveEvent item) := by
  obtain ⟨r, found, h⟩ := Failing.bind_ok.mp h
  exact ⟨r, bestNodeForEvent_ok found, (Except.ok.inj h).symm⟩

theorem attachEvent_gathers {nodes' : List StudioTracePathNode} {item : Fields Value}
    (h : c.attachEvent taskId nodes item = .ok nodes') :
    Gathers nodes nodes' [c.eventEvidence item] [] := by
  obtain ⟨r, mem, rfl⟩ := attachEvent_ok h
  exact .of_modify (List.mem_zipIdx_iff_getElem?.mp mem) rfl rfl

theorem giveSpan_ok {span : StudioTraceSpan} {node node' : StudioTracePathNode}
    (h : c.giveSpan span node = .ok node') :
    node'.id = node.id ∧ node'.evidence = node.evidence ++ [spanEvidence span] ∧
      node'.startedAt = c.earliestTimestamp [node.startedAt, span.startTime] ∧
      node'.endedAt = c.latestTimestamp [node.endedAt, span.endTime] := by
  obtain ⟨duration, -, h⟩ := Failing.bind_ok.mp h
  obtain rfl := Except.ok.inj h
  exact ⟨rfl, rfl, rfl, rfl⟩

/-- The span goes to a node that is there or to a new one, and the id of the node is noted. -/
theorem placeSpan_ok {placed placed' : Placed} {span : StudioTraceSpan}
    (h : c.placeSpan taskId placed span = .ok placed') :
    ∃ node', placed'.spanNodeIds = placed.spanNodeIds.set span.spanId node'.id ∧
      ((∃ r ∈ placed.nodes.zipIdx, c.giveSpan span r.1 = .ok node' ∧
        placed'.nodes = placed.nodes.set r.2 node') ∨
      (c.giveSpan span (c.spanNode span taskId) = .ok node' ∧
        placed'.nodes = placed.nodes ++ [node'])) := by
  unfold placeSpan at h
  split at h
  · next target found =>
    obtain ⟨node', given, h⟩ := Failing.bind_ok.mp h
    obtain rfl := Except.ok.inj h
    exact ⟨node', rfl, .inl ⟨target, drawn_bestNodeForSpan _ found, given, rfl⟩⟩
  · obtain ⟨node', given, h⟩ := Failing.bind_ok.mp h
    obtain rfl := Except.ok.inj h
    exact ⟨node', rfl, .inr ⟨given, rfl⟩⟩

theorem placeSpan_gathers {placed placed' : Placed} {span : StudioTraceSpan}
    (h : c.placeSpan taskId placed span = .ok placed') :
    Gathers placed.nodes placed'.nodes [spanEvidence span] [spanNodeId span] := by
  obtain ⟨node', -, ⟨r, mem, given, nodes⟩ | ⟨given, nodes⟩⟩ := placeSpan_ok h
  · obtain ⟨named, taken, -, -⟩ := giveSpan_ok given
    rw [nodes]
    exact .of_set (List.mem_zipIdx_iff_getElem?.mp mem) named taken
  · obtain ⟨named, taken, -, -⟩ := giveSpan_ok given
    rw [nodes, show spanNodeId span = (c.spanNode span taskId).id from rfl, ← named]
    exact .of_concat taken

/-! ## The graph and the history -/

/-- The nodes of the graph, numbered. -/
def graphItems (detail : Fields Value) : List (Fields Value × Nat) :=
  (listOfMappings ((mappingOrEmpty (detail.lookup "execution_graph")).lookup "nodes")).zipIdx 1

/-- The events of the history, numbered. -/
def statusItems (detail : Fields Value) : List (Fields Value × Nat) :=
  (listOfMappings ((mappingOrEmpty (detail.lookup "history")).lookup "events")).zipIdx 1

def letterItems (detail : Fields Value) : List (Fields Value × Nat) :=
  (dlqMessagesFromDetail detail).zipIdx 1

def graphEdges (c : Builtins) (detail : Fields Value) : List StudioTracePathEdge :=
  c.tracePathEdgesFromGraph (mappingOrEmpty (detail.lookup "execution_graph"))

/-- The ids of the nodes that other things are attached to. -/
def baseIds (c : Builtins) (taskId : String) (detail : Fields Value) : List String :=
  if graphItems detail = [] then
    ("task:" ++ taskId) :: (statusItems detail).map fun entry => statusNodeId taskId entry.2
  else (graphItems detail).map fun entry => c.graphNodeId entry.1 entry.2

/-- What these nodes are there for. -/
def baseEvidence (c : Builtins) (taskId : String) (detail : Fields Value) :
    List StudioTracePathEvidence :=
  if graphItems detail = [] then
    rootEvidence taskId (detail.lookup "latest_status") ::
      (statusItems detail).map fun entry => c.statusEvidence taskId entry.1 entry.2
  else (graphItems detail).map fun entry => c.graphNodeEvidence entry.1 entry.2

theorem graphNode_ok {item : Fields Value} {number : Nat} {node : StudioTracePathNode}
    (h : c.graphNode taskId item number = .ok node) :
    node.id = c.graphNodeId item number ∧ node.evidence = [c.graphNodeEvidence item number] := by
  obtain ⟨attempt, -, h⟩ := Failing.bind_ok.mp h
  obtain rfl := Except.ok.inj h
  exact ⟨rfl, rfl⟩

/-- The statuses come behind the nodes, each with an edge from the one before. -/
theorem appendStatus_foldl (entries : List (Fields Value × Nat)) (path : Path)
    (previous : String) :
    let path' := (entries.foldl (c.appendStatus taskId) (path, previous)).1
    path'.nodes = path.nodes ++ entries.map (fun entry => c.statusNode taskId entry.1 entry.2) ∧
      (∃ edges, path'.edges = path.edges ++ edges ∧ ∀ e ∈ edges, e.kind = "published_status") ∧
      (Joined path → previous ∈ path.nodes.map StudioTracePathNode.id → Joined path') := by
  induction entries generalizing path previous with
  | nil => exact ⟨by simp, ⟨[], by simp⟩, fun joined _ => joined⟩
  | cons entry entries ih =>
    obtain ⟨nodes, ⟨edges, eq, kinds⟩, all⟩ := ih (c.appendStatus taskId (path, previous) entry).1
      (c.statusNode taskId entry.1 entry.2).id
    refine ⟨nodes.trans (List.append_assoc ..), ⟨_, eq.trans (List.append_assoc ..), ?_⟩, ?_⟩
    · intro e he
      rcases List.mem_append.mp he with first | rest
      · obtain rfl := List.mem_singleton.mp first
        rfl
      · exact kinds e rest
    · intro joined mem
      have grown : ∀ id ∈ path.nodes.map StudioTracePathNode.id,
          id ∈ (path.nodes ++ [c.statusNode taskId entry.1 entry.2]).map
            StudioTracePathNode.id := by
        intro id hid
        rw [List.map_append]
        exact List.mem_append_left _ hid
      have last : (c.statusNode taskId entry.1 entry.2).id ∈
          (path.nodes ++ [c.statusNode taskId entry.1 entry.2]).map
            StudioTracePathNode.id := by simp
      refine all (fun e he => ?_) last
      rcases List.mem_append.mp he with old | new
      · exact ⟨grown _ (joined e old).1, grown _ (joined e old).2⟩
      · obtain rfl := List.mem_singleton.mp new
        exact ⟨grown _ mem, last⟩

theorem graphNodes_nil_iff {detail : Fields Value} {nodes : List StudioTracePathNode}
    (h : c.tracePathNodesFromGraph (mappingOrEmpty (detail.lookup "execution_graph")) taskId =
      .ok nodes) : nodes = [] ↔ graphItems detail = [] := by
  have ids := Failing.map_of_mapM (g := StudioTracePathNode.id) h fun made => (graphNode_ok made).1
  rw [← List.map_eq_nil_iff, ids, List.map_eq_nil_iff]
  rfl

/-- Every edge of the graph joins two of its nodes. -/
def GraphJoined (c : Builtins) (detail : Fields Value) : Prop :=
  ∀ e ∈ c.graphEdges detail,
    e.source ∈ (graphItems detail).map (fun entry => c.graphNodeId entry.1 entry.2) ∧
      e.target ∈ (graphItems detail).map fun entry => c.graphNodeId entry.1 entry.2

theorem baseOf_ok {detail : Fields Value} {base : Path} (h : c.baseOf taskId detail = .ok base) :
    base.nodes.map StudioTracePathNode.id = c.baseIds taskId detail ∧
      base.nodes.flatMap StudioTracePathNode.evidence = c.baseEvidence taskId detail ∧
      (∃ edges, base.edges = c.graphEdges detail ++ edges ∧
        ∀ e ∈ edges, e.kind = "published_status") ∧
      (GraphJoined c detail → Joined base) := by
  obtain ⟨nodes, made, h⟩ := Failing.bind_ok.mp h
  have none_iff := graphNodes_nil_iff made
  have ids := Failing.map_of_mapM (g := StudioTracePathNode.id) made
    fun made => (graphNode_ok made).1
  have evidence := Failing.map_of_mapM (g := StudioTracePathNode.evidence) made
    fun made => (graphNode_ok made).2
  dsimp only at h
  by_cases empty : nodes = []
  · rw [if_pos empty] at h
    obtain rfl := Except.ok.inj h
    obtain ⟨nodes, edges, all⟩ := appendStatus_foldl (c := c) (statusItems detail)
      ⟨[rootNode taskId (detail.lookup "latest_status")], c.graphEdges detail⟩ ("task:" ++ taskId)
    refine ⟨?_, ?_, edges, fun joined => all (fun e he => ?_) (by simp [rootNode])⟩
    · rw [baseIds, if_pos (none_iff.mp empty)]
      refine (congrArg (List.map StudioTracePathNode.id) nodes).trans ?_
      simp [rootNode, statusNode]
    · rw [baseEvidence, if_pos (none_iff.mp empty)]
      refine (congrArg (List.flatMap StudioTracePathNode.evidence) nodes).trans ?_
      rw [List.flatMap_append, List.flatMap_map, List.map_eq_flatMap]
      rfl
    · have nowhere := (joined e he).1
      rw [none_iff.mp empty] at nowhere
      exact absurd nowhere List.not_mem_nil
  · rw [if_neg empty] at h
    obtain rfl := Except.ok.inj h
    have graph := mt none_iff.mpr empty
    refine ⟨?_, ?_, ⟨[], (List.append_nil _).symm, by simp⟩, fun joined e he => ?_⟩
    · rw [baseIds, if_neg graph]
      exact ids
    · rw [baseEvidence, if_neg graph, List.flatMap_def, evidence, ← List.flatMap_def,
        ← List.map_eq_flatMap]
      rfl
    · rw [ids]
      exact joined e he

/-! ## Whole builders -/

/-- What the builders leave behind, one after another. -/
structure Stages where
  base : Path
  lettered : Path
  nodes : List StudioTracePathNode
  placed : Placed

def Stages.edges (stages : Stages) (spans : List StudioTraceSpan) : List StudioTracePathEdge :=
  spans.foldl (joinSpan stages.placed.spanNodeIds) stages.lettered.edges

/-- The stages of an answer. -/
structure Built (c : Builtins) (taskId : String) (detail : Fields Value)
    (spans : List StudioTraceSpan) (events : List (Fields Value)) (stages : Stages)
    (answer : StudioTracePathResponse) : Prop where
  base : c.baseOf taskId detail = .ok stages.base
  lettered : c.attachDlqMessages stages.base (dlqMessagesFromDetail detail) taskId =
    .ok stages.lettered
  nodes : c.attachEvents stages.lettered.nodes events taskId = .ok stages.nodes
  placed : spans.foldlM (c.placeSpan taskId) ⟨stages.nodes, []⟩ = .ok stages.placed
  answer_nodes : answer.nodes = c.sortedNodes stages.placed.nodes
  answer_edges : answer.edges = c.sortedEdges (stages.edges spans)

section Runs

variable {config : Option Logs.LokiLogConfig} {detail : Fields Value} {trace : StudioTraceResponse}
  {events : List (Fields Value)} {warnings : List String} {answer : StudioTracePathResponse}
  {stages : Stages}

theorem exists_built
    (h : c.buildTracePathResponse config taskId detail trace events warnings = .ok answer) :
    ∃ stages, Built c taskId detail trace.spans events stages answer := by
  obtain ⟨base, made, h⟩ := Failing.bind_ok.mp h
  obtain ⟨lettered, letters, h⟩ := Failing.bind_ok.mp h
  obtain ⟨nodes, attached, h⟩ := Failing.bind_ok.mp h
  obtain ⟨path, spanned, h⟩ := Failing.bind_ok.mp h
  obtain ⟨summary, -, h⟩ := Failing.bind_ok.mp h
  obtain rfl := Except.ok.inj h
  obtain ⟨placed, placing, spanned⟩ := Failing.bind_ok.mp spanned
  obtain rfl := Except.ok.inj spanned
  exact ⟨⟨base, lettered, nodes, placed⟩, made, letters, attached, placing, rfl, rfl⟩

/-- The names of the nodes that may be made. -/
def freshIds (taskId : String) (detail : Fields Value) (spans : List StudioTraceSpan) :
    List String :=
  (letterItems detail).map (fun entry => dlqNodeId taskId entry.2) ++ spans.map spanNodeId

/-- What is attached to the nodes. -/
def attachedEvidence (c : Builtins) (taskId : String) (detail : Fields Value)
    (events : List (Fields Value)) (spans : List StudioTraceSpan) : List StudioTracePathEvidence :=
  (letterItems detail).map (fun entry => c.dlqEvidence taskId entry.1 entry.2) ++
    events.map c.eventEvidence ++ spans.map spanEvidence

theorem Built.lettered_gathers (b : Built c taskId detail trace.spans events stages answer) :
    Gathers stages.base.nodes stages.lettered.nodes
      ((letterItems detail).map fun entry => c.dlqEvidence taskId entry.1 entry.2)
      ((letterItems detail).flatMap fun entry => [dlqNodeId taskId entry.2]) :=
  Gathered.foldlM Path.nodes (fun stepped => attachDlqMessage_gathers stepped) b.lettered

theorem Built.nodes_gathers (b : Built c taskId detail trace.spans events stages answer) :
    Gathers stages.lettered.nodes stages.nodes (events.map c.eventEvidence) [] := by
  have all := Gathered.foldlM (fun nodes => nodes) (fun stepped => attachEvent_gathers stepped)
    b.nodes
  rwa [List.flatMap_eq_nil_iff.mpr fun _ _ => rfl] at all

theorem Built.placed_gathers (b : Built c taskId detail trace.spans events stages answer) :
    Gathers stages.nodes stages.placed.nodes (trace.spans.map spanEvidence)
      (trace.spans.flatMap fun span => [spanNodeId span]) := by
  have all := Gathered.foldlM Placed.nodes (fun stepped => placeSpan_gathers stepped) b.placed
  exact all

theorem Built.gathers (b : Built c taskId detail trace.spans events stages answer) :
    Gathers stages.base.nodes stages.placed.nodes
      (attachedEvidence c taskId detail events trace.spans)
      (freshIds taskId detail trace.spans) := by
  have all := (b.lettered_gathers.trans b.nodes_gathers).trans b.placed_gathers
  rwa [← List.map_eq_flatMap, ← List.map_eq_flatMap, List.append_nil] at all

theorem Joined.of_subset {edges : List StudioTracePathEdge} {nodes' : List StudioTracePathNode}
    (joined : Joined ⟨nodes, edges⟩)
    (kept : nodes.map StudioTracePathNode.id ⊆ nodes'.map StudioTracePathNode.id) :
    Joined ⟨nodes', edges⟩ :=
  fun e he => ⟨kept (joined e he).1, kept (joined e he).2⟩

/-- The ids that were noted for spans are ids of nodes. -/
def Noted (placed : Placed) : Prop :=
  ∀ key id, placed.spanNodeIds.lookup key = some id →
    id ∈ placed.nodes.map StudioTracePathNode.id

theorem placeSpan_noted {placed placed' : Placed} {span : StudioTraceSpan}
    (h : c.placeSpan taskId placed span = .ok placed') (noted : Noted placed) : Noted placed' := by
  have kept := (placeSpan_gathers h).map_subset
  obtain ⟨node', ids, place⟩ := placeSpan_ok h
  have there : node'.id ∈ placed'.nodes.map StudioTracePathNode.id := by
    refine List.mem_map_of_mem ?_
    rcases place with ⟨r, mem, -, nodes⟩ | ⟨-, nodes⟩
    · obtain ⟨inside, -⟩ := List.getElem?_eq_some_iff.mp (List.mem_zipIdx_iff_getElem?.mp mem)
      rw [nodes]
      exact List.mem_set inside node'
    · rw [nodes]
      exact List.mem_append_right _ List.mem_cons_self
  intro key id found
  rw [ids] at found
  by_cases same : key = span.spanId
  · subst same
    rw [Fields.lookup_set_self] at found
    exact Option.some.inj found ▸ there
  · rw [Fields.lookup_set_ne same] at found
    exact kept (noted key id found)

theorem Built.noted (b : Built c taskId detail trace.spans events stages answer) :
    Noted stages.placed :=
  Failing.foldlM_ok (I := fun _ placed => Noted placed)
    (fun noted stepped => placeSpan_noted stepped noted) (fun _ _ found => by cases found) b.placed

theorem joinSpan_cases (ids : Fields String) (edges : List StudioTracePathEdge)
    (span : StudioTraceSpan) :
    joinSpan ids edges span = edges ∨ ∃ source target, childEdge ids span = some (source, target) ∧
      (source, target, "span_child") ∉ edges.map edgeKey ∧
      ∃ e, edgeKey e = (source, target, "span_child") ∧ joinSpan ids edges span = edges ++ [e] := by
  unfold joinSpan
  split
  · exact .inl rfl
  · next source target found =>
    split
    · exact .inl rfl
    · next new =>
      exact .inr ⟨source, target, found, mt List.contains_iff_mem.mpr new, _, rfl, rfl⟩

theorem childEdge_lookup {ids : Fields String} {span : StudioTraceSpan} {source target : String}
    (h : childEdge ids span = some (source, target)) :
    (∃ parent, parentOf span = some parent ∧ ids.lookup parent = some source) ∧
      ids.lookup span.spanId = some target ∧ source ≠ target := by
  unfold childEdge at h
  obtain ⟨parent, child, h⟩ := Option.bind_eq_some_iff.mp h
  obtain ⟨a, first, h⟩ := Option.bind_eq_some_iff.mp h
  obtain ⟨b, second, h⟩ := Option.bind_eq_some_iff.mp h
  split at h
  · cases h
  · next differ =>
    obtain ⟨rfl, rfl⟩ := Prod.mk.inj (Option.some.inj h)
    exact ⟨⟨parent, child, first⟩, second, differ⟩

theorem joinSpan_joined {placed : Placed} {edges : List StudioTracePathEdge}
    {span : StudioTraceSpan} (noted : Noted placed) (joined : Joined ⟨placed.nodes, edges⟩) :
    Joined ⟨placed.nodes, joinSpan placed.spanNodeIds edges span⟩ := by
  rcases joinSpan_cases placed.spanNodeIds edges span with same | ⟨source, target, found, -, e, key,
    added⟩
  · rwa [same]
  · obtain ⟨⟨parent, -, first⟩, second, -⟩ := childEdge_lookup found
    obtain ⟨rfl, ends⟩ := Prod.mk.inj key
    obtain ⟨rfl, -⟩ := Prod.mk.inj ends
    rw [added]
    intro e' he
    rcases List.mem_append.mp he with old | new
    · exact joined e' old
    · obtain rfl := List.mem_singleton.mp new
      exact ⟨noted _ _ first, noted _ _ second⟩

theorem Built.lettered_joined (b : Built c taskId detail trace.spans events stages answer)
    (joined : GraphJoined c detail) : Joined stages.lettered :=
  Failing.foldlM_ok (I := fun _ path => Joined path)
    (fun joined stepped => attachDlqMessage_joined stepped joined)
    ((baseOf_ok b.base).2.2.2 joined) b.lettered

theorem Built.joined (b : Built c taskId detail trace.spans events stages answer)
    (joined : GraphJoined c detail) :
    Joined ⟨stages.placed.nodes, stages.edges trace.spans⟩ := by
  have lettered := b.lettered_joined joined
  have start : Joined ⟨stages.placed.nodes, stages.lettered.edges⟩ :=
    (Joined.of_subset lettered b.nodes_gathers.map_subset).of_subset b.placed_gathers.map_subset
  unfold Stages.edges
  generalize stages.lettered.edges = edges at start
  generalize trace.spans = spans
  induction spans generalizing edges with
  | nil => exact start
  | cons span spans ih => exact ih _ (joinSpan_joined b.noted start)

theorem Built.evidence (b : Built c taskId detail trace.spans events stages answer) :
    (answer.nodes.flatMap StudioTracePathNode.evidence).Perm
      (c.baseEvidence taskId detail ++ attachedEvidence c taskId detail events trace.spans) := by
  rw [b.answer_nodes, ← (baseOf_ok b.base).2.1]
  exact ((List.perm_insertionSort _ _).flatMap_right _).trans b.gathers.contents

theorem Built.answer_joined (b : Built c taskId detail trace.spans events stages answer)
    (joined : GraphJoined c detail) : Joined ⟨answer.nodes, answer.edges⟩ := by
  rw [b.answer_nodes, b.answer_edges]
  have sorted := (b.joined joined).of_subset
    ((List.perm_insertionSort (fun x y => c.nodeKey x ≤ c.nodeKey y)
      stages.placed.nodes).symm.map StudioTracePathNode.id).subset
  exact fun e he => sorted e ((List.mem_insertionSort _).mp he)

/-- A trace path holds what its base and each message, event and span is evidence of, each once. Its
edges end at its nodes if those of the graph do. -/
theorem tracePath_keeps_evidence
    (answered : c.buildTracePathResponse config taskId detail trace events warnings = .ok answer) :
    (answer.nodes.flatMap StudioTracePathNode.evidence).Perm
        (c.baseEvidence taskId detail ++ attachedEvidence c taskId detail events trace.spans) ∧
      (GraphJoined c detail → Joined ⟨answer.nodes, answer.edges⟩) := by
  obtain ⟨stages, b⟩ := exists_built answered
  exact ⟨b.evidence, b.answer_joined⟩

end Runs

/-- Texts by themselves; no text is a time. -/
def untimed : Builtins :=
  ⟨plainText, fun s => String.ofList (s.toList.map Char.toLower), fun _ => none⟩

/-- An attempt that entered a stage, and a message that the stage dead-lettered. -/
def rejected : Fields Value :=
  [("execution_graph", .dict [
    ("nodes", .list [
      .dict [("id", .str "attempt"), ("kind", .str "task_attempt")],
      .dict [("id", .str "resize"), ("kind", .str "stage_attempt"),
        ("annotations", .dict [("stage", .str "resize")])]]),
    ("edges", .list [
      .dict [("source", .str "attempt"), ("target", .str "resize"), ("kind", .str "entered")]])]),
  ("dlq_messages", .dict [("items", .list [
    .dict [("dlq_id", .str "letter"), ("queue_name", .str "resize.dlq")]])])]

def failure : Fields Value := [("event_id", .str "event"), ("event_type", .str "status.failed")]

/-- The span of the consumer, that of the stage, and one that belongs to no node. -/
def calls : List StudioTraceSpan :=
  [("1", none, "consumer", []), ("2", some "1", "resize", [("stage", .str "resize")]),
    ("3", some "2", "read", [])].map fun (spanId, parent, name, attributes) =>
      ⟨"trace", spanId, parent, name, none, none, none, none, none, none, attributes, ""⟩

/-- The nodes with the evidence that they hold, and the edges. -/
theorem exists_calls :
    ∃ answer, untimed.buildTracePathResponse none "task" rejected ⟨["trace"], calls⟩ [failure] [] =
        .ok answer ∧
      answer.nodes.map (fun n => (n.id, n.evidence.map (·.sourceId))) =
        [("attempt", ["attempt", "event", "1"]), ("dlq:task:trace-path:1", ["letter"]),
          ("resize", ["resize", "2"]), ("span:3", ["3"])] ∧
      answer.edges.map edgeKey =
        [("attempt", "resize", "entered"), ("attempt", "resize", "span_child"),
          ("resize", "dlq:task:trace-path:1", "dead_lettered_to"),
          ("resize", "span:3", "span_child")] :=
  Failing.ok_and_of_any (by decide +kernel)

theorem tracePath_keeps_evidence_calls : ∃ answer : StudioTracePathResponse,
    answer.nodes.map (fun n => (n.id, n.evidence.map (·.sourceId))) =
        [("attempt", ["attempt", "event", "1"]), ("dlq:task:trace-path:1", ["letter"]),
          ("resize", ["resize", "2"]), ("span:3", ["3"])] ∧
      (answer.nodes.flatMap StudioTracePathNode.evidence).Perm
        (untimed.baseEvidence "task" rejected ++
          attachedEvidence untimed "task" rejected [failure] calls) ∧
      Joined ⟨answer.nodes, answer.edges⟩ := by
  obtain ⟨answer, answered, nodes, -⟩ := exists_calls
  have joined : GraphJoined untimed rejected := by
    have ends : ∀ e ∈ untimed.graphEdges rejected, e.source ∈ ["attempt", "resize"] ∧
        e.target ∈ ["attempt", "resize"] := by decide +kernel
    have ids : (graphItems rejected).map (fun entry => untimed.graphNodeId entry.1 entry.2) =
        ["attempt", "resize"] := by decide +kernel
    rw [GraphJoined, ids]
    exact ends
  obtain ⟨kept, ends⟩ := tracePath_keeps_evidence answered
  exact ⟨answer, nodes, kept, ends joined⟩

end Builtins

end Relayna.Studio.TracePaths
