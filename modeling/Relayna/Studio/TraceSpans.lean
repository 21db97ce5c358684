import Relayna.Studio.TraceEvidence

/-!
# Spans in a trace path

When the ids that may be given to nodes differ, the nodes of a trace path have different ids, and
two of them are joined as the nodes of a span and its parent exactly if they hold the two spans.
-/
namespace Relayna.Studio.TracePaths.Builtins

open Python Contracts ProviderAnswers.Tempo Gathering

variable {c : Builtins} {taskId : String}

theorem spanEvidence_inj {s t : StudioTraceSpan} : spanEvidence s = spanEvidence t ↔ s = t :=
  ⟨fun h => Payload.dump.inj (congrArg StudioTracePathEvidence.payload h), fun h => h ▸ rfl⟩

/-- A node holds the spans whose id was noted with its own. -/
def Located (spans : List StudioTraceSpan) (placed : Placed) : Prop :=
  ∀ n ∈ placed.nodes, ∀ s, spanEvidence s ∈ n.evidence ↔
    s ∈ spans ∧ placed.spanNodeIds.lookup s.spanId = some n.id

/-- Only the ids of spans are noted. -/
def OnlySpans (spans : List StudioTraceSpan) (placed : Placed) : Prop :=
  ∀ key id, placed.spanNodeIds.lookup key = some id → ∃ s ∈ spans, s.spanId = key

theorem placeSpan_onlySpans {placed placed' : Placed} {span : StudioTraceSpan}
    {done : List StudioTraceSpan} (h : c.placeSpan taskId placed span = .ok placed')
    (only : OnlySpans done placed) : OnlySpans (done ++ [span]) placed' := by
  obtain ⟨node', ids, -⟩ := placeSpan_ok h
  intro key id found
  by_cases same : span.spanId = key
  · exact ⟨span, by simp, same⟩
  · rw [ids, Fields.lookup_set_ne (Ne.symm same)] at found
    obtain ⟨s, mem, eq⟩ := only key id found
    exact ⟨s, List.mem_append_left _ mem, eq⟩

theorem placeSpan_located {placed placed' : Placed} {span : StudioTraceSpan}
    {done : List StudioTraceSpan} (h : c.placeSpan taskId placed span = .ok placed')
    (noted : Noted placed) (ids : (placed'.nodes.map StudioTracePathNode.id).Nodup)
    (new : ∀ s ∈ done, s.spanId ≠ span.spanId) (located : Located done placed) :
    Located (done ++ [span]) placed' := by
  obtain ⟨node', set, place⟩ := placeSpan_ok h
  -- The node that is given the span holds what it held, which is nothing if it is new.
  have given : node' ∈ placed'.nodes ∧ (∀ s, spanEvidence s ∈ node'.evidence ↔
      s = span ∨ s ∈ done ∧ placed.spanNodeIds.lookup s.spanId = some node'.id) ∧
      ∀ n ∈ placed'.nodes, n = node' ∨ n ∈ placed.nodes := by
    rcases place with ⟨r, mem, made, nodes⟩ | ⟨made, nodes⟩
    · have found := List.mem_zipIdx_iff_getElem?.mp mem
      obtain ⟨inside, -⟩ := List.getElem?_eq_some_iff.mp found
      obtain ⟨named, taken, -, -⟩ := giveSpan_ok made
      refine ⟨nodes ▸ List.mem_set inside node', fun s => ?_, fun n hn => ?_⟩
      · rw [taken, List.mem_append, List.mem_singleton, spanEvidence_inj, named,
          located r.1 (List.mem_of_getElem? found), or_comm]
      · exact (List.mem_or_eq_of_mem_set (nodes ▸ hn)).symm
    · obtain ⟨-, taken, -, -⟩ := giveSpan_ok made
      refine ⟨nodes ▸ by simp, fun s => ?_, fun n hn => ?_⟩
      · have free : placed.spanNodeIds.lookup s.spanId ≠ some node'.id := by
          intro found
          rw [nodes, List.map_append] at ids
          exact (List.nodup_append.mp ids).2.2 _ (noted _ _ found) _ (by simp) rfl
        rw [taken]
        simp [spanNode, spanEvidence_inj, free]
      · rw [nodes, List.mem_append, List.mem_singleton] at hn
        exact hn.symm
  obtain ⟨there, holds, others⟩ := given
  intro n hn s
  rw [set, List.mem_append, List.mem_singleton]
  by_cases same : s.spanId = span.spanId
  · have fresh : s ∉ done := fun mem => new s mem same
    rw [same, Fields.lookup_set_self, Option.some_inj]
    rcases eq_or_ne n node' with rfl | differ
    · simp [holds, fresh]
    · have apart : node'.id ≠ n.id :=
        fun eq => differ (List.inj_on_of_nodup_map ids hn there eq.symm)
      simp [located n ((others n hn).resolve_left differ), fresh, apart]
  · have distinct : s ≠ span := fun eq => same (eq ▸ rfl)
    rw [Fields.lookup_set_ne same]
    rcases others n hn with rfl | old
    · simp [holds, distinct]
    · simp [located n old, distinct]

theorem mem_joinSpan {ids : Fields String} {edges : List StudioTracePathEdge}
    {span : StudioTraceSpan} {source target : String} :
    (source, target, "span_child") ∈ (joinSpan ids edges span).map edgeKey ↔
      (source, target, "span_child") ∈ edges.map edgeKey ∨
        childEdge ids span = some (source, target) := by
  unfold joinSpan
  split
  · next none => simp [none]
  · next a b found =>
    split
    · next present =>
      refine ⟨.inl, fun h => h.elim id fun same => ?_⟩
      obtain ⟨rfl, rfl⟩ := Prod.mk.inj (Option.some.inj (found.symm.trans same))
      exact List.contains_iff_mem.mp present
    · rw [List.map_append, List.mem_append, found]
      simp [edgeKey, eq_comm]

theorem mem_foldl_joinSpan {ids : Fields String} {edges : List StudioTracePathEdge}
    {spans : List StudioTraceSpan} {source target : String} :
    (source, target, "span_child") ∈ (spans.foldl (joinSpan ids) edges).map edgeKey ↔
      (source, target, "span_child") ∈ edges.map edgeKey ∨
        ∃ s ∈ spans, childEdge ids s = some (source, target) := by
  induction spans generalizing edges with
  | nil => simp
  | cons s spans ih =>
    simp only [List.foldl_cons, ih, mem_joinSpan, List.mem_cons, exists_eq_or_imp, or_assoc]

section Runs

variable {config : Option Logs.LokiLogConfig} {detail : Fields Value} {trace : StudioTraceResponse}
  {events : List (Fields Value)} {warnings : List String} {answer : StudioTracePathResponse}
  {stages : Stages}

theorem Built.no_spans (b : Built c taskId detail trace.spans events stages answer)
    {n : StudioTracePathNode} (hn : n ∈ stages.nodes) (s : StudioTraceSpan) :
    spanEvidence s ∉ n.evidence := by
  intro held
  have contents := (b.lettered_gathers.trans b.nodes_gathers).contents
  rw [(baseOf_ok b.base).2.1] at contents
  have mem := contents.subset (List.mem_flatMap_of_mem hn held)
  rw [baseEvidence] at mem
  split at mem <;>
    simp [spanEvidence, rootEvidence, statusEvidence, graphNodeEvidence, dlqEvidence,
      eventEvidence] at mem

theorem Built.ids_nodup (b : Built c taskId detail trace.spans events stages answer)
    (free : (c.baseIds taskId detail ++ freshIds taskId detail trace.spans).Nodup) :
    (stages.placed.nodes.map StudioTracePathNode.id).Nodup := by
  rw [← (baseOf_ok b.base).1] at free
  exact b.gathers.nodup free

theorem Built.located (b : Built c taskId detail trace.spans events stages answer)
    (free : (c.baseIds taskId detail ++ freshIds taskId detail trace.spans).Nodup) :
    Located trace.spans stages.placed ∧ OnlySpans trace.spans stages.placed := by
  have ids : (stages.nodes.map StudioTracePathNode.id ++ trace.spans.map spanNodeId).Nodup := by
    have before := (b.lettered_gathers.trans b.nodes_gathers).sublist
    rw [(baseOf_ok b.base).1, List.append_nil, ← List.map_eq_flatMap] at before
    rw [freshIds, ← List.append_assoc] at free
    exact free.sublist (before.append_right _)
  have all := Failing.foldlM_ok (I := fun done placed =>
      Gathers stages.nodes placed.nodes (done.map spanEvidence) (done.map spanNodeId) ∧
      Noted placed ∧ OnlySpans done placed ∧
      ((stages.nodes.map StudioTracePathNode.id ++ done.map spanNodeId).Nodup →
        Located done placed))
    ?_ ?_ b.placed
  · exact ⟨all.2.2.2 ids, all.2.2.1⟩
  · rintro done placed span placed' ⟨sofar, noted, only, located⟩ stepped
    have gathered : Gathers stages.nodes placed'.nodes ((done ++ [span]).map spanEvidence)
        ((done ++ [span]).map spanNodeId) := by
      rw [List.map_append, List.map_append]
      exact sofar.trans (placeSpan_gathers stepped)
    refine ⟨gathered, placeSpan_noted stepped noted, placeSpan_onlySpans stepped only, ?_⟩
    intro ids
    refine placeSpan_located stepped noted (gathered.nodup ids) (fun s hs same => ?_) ?_
    · have apart := (List.nodup_append.mp ids).2.1
      rw [List.map_append] at apart
      exact (List.nodup_append.mp apart).2.2 _ (List.mem_map_of_mem hs) _
        (List.mem_singleton_self _) (congrArg ("span:" ++ ·) same)
    · exact located (ids.sublist ((List.sublist_append_left ..).map _ |>.append_left _))
  · refine ⟨.refl, ?_, ?_, fun _ n hn s => by simp [b.no_spans hn s]⟩
    · intro _ _ found
      cases found
    · intro _ _ found
      cases found

/-- Only edges of the graph were there before with the kind of spans. -/
theorem Built.mem_lettered (b : Built c taskId detail trace.spans events stages answer)
    {source target : String} :
    (source, target, "span_child") ∈ stages.lettered.edges.map edgeKey ↔
      (source, target, "span_child") ∈ (c.graphEdges detail).map edgeKey := by
  obtain ⟨more, eq, others⟩ : ∃ more, stages.lettered.edges = c.graphEdges detail ++ more ∧
      ∀ e ∈ more, e.kind ≠ "span_child" := by
    refine Failing.foldlM_ok (I := fun _ path => ∃ more, path.edges = c.graphEdges detail ++ more ∧
      ∀ e ∈ more, e.kind ≠ "span_child") ?_ ?_ b.lettered
    · rintro _ path entry path' ⟨more, eq, others⟩ stepped
      rcases attachDlqMessage_ok stepped with ⟨-, -, rfl⟩ | ⟨_, -, -, -, -, -, edges, eq', kinds⟩
      · exact ⟨more, eq, others⟩
      · refine ⟨more ++ edges, by rw [eq', eq, List.append_assoc], fun e he => ?_⟩
        rcases List.mem_append.mp he with old | new
        · exact others e old
        · rw [(kinds e new).1]
          decide
    · obtain ⟨more, eq, kinds⟩ := (baseOf_ok b.base).2.2.1
      exact ⟨more, eq, fun e he => by rw [kinds e he]; decide⟩
  rw [eq, List.map_append, List.mem_append, or_iff_left_iff_imp]
  intro mem
  obtain ⟨e, he, key⟩ := List.mem_map.mp mem
  exact absurd (congrArg (·.2.2) key) (others e he)

/-- The nodes of a trace path have different ids. Beside the edges of the graph, an edge of spans
leads from one node to another exactly if the one holds a span's parent and the other the span. -/
theorem tracePath_spans
    (answered : c.buildTracePathResponse config taskId detail trace events warnings = .ok answer)
    (free : (c.baseIds taskId detail ++ freshIds taskId detail trace.spans).Nodup) :
    (answer.nodes.map StudioTracePathNode.id).Nodup ∧
      ∀ m ∈ answer.nodes, ∀ n ∈ answer.nodes,
        (m.id, n.id, "span_child") ∈ answer.edges.map edgeKey ↔
          (m.id, n.id, "span_child") ∈ (c.graphEdges detail).map edgeKey ∨
          m.id ≠ n.id ∧ ∃ p ∈ trace.spans, ∃ s ∈ trace.spans, parentOf s = some p.spanId ∧
            spanEvidence p ∈ m.evidence ∧ spanEvidence s ∈ n.evidence := by
  obtain ⟨stages, b⟩ := exists_built answered
  obtain ⟨located, only⟩ := b.located free
  refine ⟨?_, fun m hm n hn => ?_⟩
  · rw [b.answer_nodes]
    exact ((List.perm_insertionSort _ _).map _).nodup_iff.mpr (b.ids_nodup free)
  rw [b.answer_nodes, sortedNodes, List.mem_insertionSort] at hm hn
  rw [b.answer_edges, sortedEdges, ((List.perm_insertionSort _ _).map _).mem_iff, Stages.edges,
    mem_foldl_joinSpan, b.mem_lettered]
  refine or_congr_right ⟨?_, ?_⟩
  · rintro ⟨s, hs, found⟩
    obtain ⟨⟨parent, child, first⟩, second, differ⟩ := childEdge_lookup found
    obtain ⟨p, hp, rfl⟩ := only _ _ first
    exact ⟨differ, p, hp, s, hs, child, (located m hm p).mpr ⟨hp, first⟩,
      (located n hn s).mpr ⟨hs, second⟩⟩
  · rintro ⟨differ, p, hp, s, hs, child, first, second⟩
    refine ⟨s, hs, ?_⟩
    simp only [childEdge, child, ((located m hm p).mp first).2, ((located n hn s).mp second).2,
      Option.bind_eq_bind, Option.bind_some, if_neg differ]

end Runs

theorem tracePath_spans_calls : ∃ answer : StudioTracePathResponse,
    answer.edges.map edgeKey =
        [("attempt", "resize", "entered"), ("attempt", "resize", "span_child"),
          ("resize", "dlq:task:trace-path:1", "dead_lettered_to"),
          ("resize", "span:3", "span_child")] ∧
      (answer.nodes.map StudioTracePathNode.id).Nodup ∧
      ∀ m ∈ answer.nodes, ∀ n ∈ answer.nodes,
        (m.id, n.id, "span_child") ∈ answer.edges.map edgeKey ↔
          (m.id, n.id, "span_child") ∈ (untimed.graphEdges rejected).map edgeKey ∨
          m.id ≠ n.id ∧ ∃ p ∈ calls, ∃ s ∈ calls, parentOf s = some p.spanId ∧
            spanEvidence p ∈ m.evidence ∧ spanEvidence s ∈ n.evidence := by
  obtain ⟨answer, answered, -, edges⟩ := exists_calls
  exact ⟨answer, edges, tracePath_spans answered (by decide +kernel)⟩

end Relayna.Studio.TracePaths.Builtins
