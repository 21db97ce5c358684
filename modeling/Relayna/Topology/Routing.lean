import Relayna.Topology.TopicMatch
import Relayna.Topology.Workflow

/-!
# The stage a routing key stands for

`WorkflowContext.publish_workflow_message` labels a message with a stage that it finds by the
routing key, in four passes: the publish keys, the binding keys read literally, the entry routes
and the binding keys read as patterns. The broker knows the binding keys only.
-/
namespace Relayna.Topology

open Python Failing

namespace SharedStatusWorkflowTopology

/-- `_resolve_workflow_stage_for_routing_key`. -/
def resolveWorkflowStage (t : SharedStatusWorkflowTopology) (routingKey : String) :
    Except TopologyError String := do
  if let some stage ← t.workflowStageNames.findM? fun stage => do
      return (← t.workflowPublishRoutingKey stage) == routingKey then
    return stage
  if let some stage ← t.workflowStageNames.findM? fun stage => do
      return (← t.workflowBindingKeys stage).contains routingKey then
    return stage
  if let some route := t.entryRoutes.find? (·.routingKey == routingKey) then
    return route.targetStage
  if let some stage ← t.workflowStageNames.findM? fun stage => do
      return (← t.workflowBindingKeys stage).any (Context.topicBindingMatches · routingKey) then
    return stage
  .error (.keyError s!"No workflow stage publishes with routing key '{routingKey}'")

variable {t : SharedStatusWorkflowTopology} {s : WorkflowStage} {routingKey stage : String}

/-- The broker delivers the routing key to the queue of the stage. -/
def Receives (s : WorkflowStage) (routingKey : String) : Prop :=
  ∃ key ∈ strippedItems s.bindingKeys, Produces (words key) (words routingKey)

theorem any_matches_iff : (strippedItems s.bindingKeys).any
    (Context.topicBindingMatches · routingKey) = true ↔ Receives s routingKey := by
  simp only [List.any_eq_true, Context.topicBindingMatches, matchesAt_iff, Receives]

/-- The stages in the order of the four passes. -/
def candidate (t : SharedStatusWorkflowTopology) (routingKey : String) : Option String :=
  ((t.stages.find? fun s => strip s.publishRoutingKey == routingKey).map (·.name)).or <|
  ((t.stages.find? fun s => (strippedItems s.bindingKeys).contains routingKey).map (·.name)).or <|
  ((t.entryRoutes.find? (·.routingKey == routingKey)).map (·.targetStage)).or <|
  (t.stages.find? fun s => (strippedItems s.bindingKeys).any
    (Context.topicBindingMatches · routingKey)).map (·.name)

theorem Valid.resolveWorkflowStage_eq (valid : t.Valid) :
    t.resolveWorkflowStage routingKey = ((t.candidate routingKey).map Except.ok).getD
      (.error (.keyError s!"No workflow stage publishes with routing key '{routingKey}'")) := by
  have found : ∀ s ∈ t.stages, t.workflowStage s.name = .ok s := fun s member =>
    valid.workflowStage_iff.mpr ⟨member, rfl⟩
  have published : ∀ s ∈ t.stages, t.workflowPublishRoutingKey s.name =
      .ok (strip s.publishRoutingKey) := fun s member => by
    rw [workflowPublishRoutingKey, found s member]
    rfl
  have bound : ∀ s ∈ t.stages, t.workflowBindingKeys s.name =
      .ok (strippedItems s.bindingKeys) := fun s member => by
    rw [workflowBindingKeys, found s member]
    rfl
  unfold resolveWorkflowStage workflowStageNames candidate
  rw [findM?_map (q := fun s => strip s.publishRoutingKey == routingKey)
      fun s member => by rw [published s member]; rfl,
    findM?_map (q := fun s => (strippedItems s.bindingKeys).contains routingKey)
      fun s member => by rw [bound s member]; rfl,
    findM?_map (q := fun s => (strippedItems s.bindingKeys).any
      (Context.topicBindingMatches · routingKey)) fun s member => by rw [bound s member]; rfl]
  cases t.stages.find? fun s => strip s.publishRoutingKey == routingKey with
  | some s => rfl
  | none =>
    cases t.stages.find? fun s => (strippedItems s.bindingKeys).contains routingKey with
    | some s => rfl
    | none =>
      cases t.entryRoutes.find? (·.routingKey == routingKey) with
      | some route => rfl
      | none =>
        cases t.stages.find? fun s => (strippedItems s.bindingKeys).any
            (Context.topicBindingMatches · routingKey) with
        | some s => rfl
        | none => rfl

theorem produces_self (binding : List String) : Produces binding binding := by
  induction binding with
  | nil => exact .nil
  | cons token binding ih =>
    by_cases star : token = "*"
    · exact star ▸ .star "*" ih
    · by_cases hash : token = "#"
      · exact hash ▸ .hash ["#"] ih
      · exact .word star hash ih

/-- A pass over the stages that finds one. -/
theorem find?_some_cases {p : WorkflowStage → Bool}
    (h : (t.stages.find? p).map (·.name) = some stage) :
    ∃ s ∈ t.stages, s.name = stage ∧ p s = true := by
  obtain ⟨s, found, rfl⟩ := Option.map_eq_some_iff.mp h
  exact ⟨s, List.mem_of_find?_eq_some found, rfl, List.find?_some found⟩

theorem find?_none_cases {p : WorkflowStage → Bool}
    (h : (t.stages.find? p).map (·.name) = none) : ∀ s ∈ t.stages, ¬p s = true :=
  List.find?_eq_none.mp (Option.map_eq_none_iff.mp h)

/-- Why a stage is the candidate. -/
theorem candidate_some_cases (h : t.candidate routingKey = some stage) :
    (∃ s ∈ t.stages, s.name = stage ∧
      (strip s.publishRoutingKey = routingKey ∨ Receives s routingKey)) ∨
    ∃ route ∈ t.entryRoutes, route.targetStage = stage ∧ route.routingKey = routingKey ∧
      ∀ s ∈ t.stages, strip s.publishRoutingKey ≠ routingKey ∧
        routingKey ∉ strippedItems s.bindingKeys := by
  obtain first | ⟨first, h⟩ := Option.or_eq_some_iff.mp h
  · obtain ⟨s, member, named, published⟩ := find?_some_cases first
    exact .inl ⟨s, member, named, .inl (by simpa using published)⟩
  obtain second | ⟨second, h⟩ := Option.or_eq_some_iff.mp h
  · obtain ⟨s, member, named, literal⟩ := find?_some_cases second
    exact .inl ⟨s, member, named, .inr ⟨routingKey, by simpa using literal, produces_self _⟩⟩
  obtain third | ⟨third, fourth⟩ := Option.or_eq_some_iff.mp h
  · obtain ⟨route, found, target⟩ := Option.map_eq_some_iff.mp third
    refine .inr ⟨route, List.mem_of_find?_eq_some found, target,
      by simpa using List.find?_some found, fun s member => ⟨?_, ?_⟩⟩
    · simpa using find?_none_cases first s member
    · simpa using find?_none_cases second s member
  · obtain ⟨s, member, named, matched⟩ := find?_some_cases fourth
    exact .inl ⟨s, member, named, .inr (any_matches_iff.mp matched)⟩

theorem candidate_none (h : t.candidate routingKey = none) :
    ∀ s ∈ t.stages, ¬Receives s routingKey := by
  intro s member receives
  simp only [candidate, Option.or_eq_none_iff] at h
  exact find?_none_cases h.2.2.2 s member (any_matches_iff.mpr receives)

/-- The label is a stage that receives the message, except where the routing key is declared as a
stage's publish key or, failing the publish keys and the literal binding keys, as the key of an
entry route. No stage receives what has no label. -/
theorem resolved_stage_receives_or_declared (accepted : t.postInit = .ok ()) (routingKey : String) :
    (∀ stage, t.resolveWorkflowStage routingKey = .ok stage →
      (∃ s ∈ t.stages, s.name = stage ∧
        (strip s.publishRoutingKey = routingKey ∨ Receives s routingKey)) ∨
      ∃ route ∈ t.entryRoutes, route.targetStage = stage ∧ route.routingKey = routingKey ∧
        ∀ s ∈ t.stages, strip s.publishRoutingKey ≠ routingKey ∧
          routingKey ∉ strippedItems s.bindingKeys) ∧
    ∀ e, t.resolveWorkflowStage routingKey = .error e →
      ∀ s ∈ t.stages, ¬Receives s routingKey := by
  have valid := valid_of_postInit accepted
  rw [valid.resolveWorkflowStage_eq]
  cases h : t.candidate routingKey with
  | some other =>
    refine ⟨fun stage same => ?_, fun _ same => nomatch same⟩
    obtain rfl := Except.ok.inj same
    exact candidate_some_cases h
  | none => exact ⟨fun _ same => (nomatch same), fun _ _ => candidate_none h⟩

/-- A stage bound to everything, a stage bound to its own key, and an entry route to the second
stage under a key of the route's own. -/
def catchAll : SharedStatusWorkflowTopology where
  stages := [
    { name := "catch_all", queue := "catch_all.queue", bindingKeys := ["#"],
      publishRoutingKey := "c" },
    { name := "docsearch", queue := "docsearch.queue", bindingKeys := ["d"],
      publishRoutingKey := "d" }]
  entryRoutes := [⟨"custom", "e", "docsearch"⟩]

theorem catchAll_resolved_d :
    catchAll.resolveWorkflowStage "d" = .ok "docsearch" ∧
      ((∃ s ∈ catchAll.stages, s.name = "docsearch" ∧
        (strip s.publishRoutingKey = "d" ∨ Receives s "d")) ∨
      ∃ route ∈ catchAll.entryRoutes, route.targetStage = "docsearch" ∧ route.routingKey = "d" ∧
        ∀ s ∈ catchAll.stages, strip s.publishRoutingKey ≠ "d" ∧
          "d" ∉ strippedItems s.bindingKeys) :=
  ⟨rfl, (resolved_stage_receives_or_declared rfl "d").1 "docsearch" rfl⟩

theorem words_d : words "d" = ["d"] := by
  rw [words, String.splitOn, if_neg (by decide +kernel), String.splitOnAux,
    if_neg (by decide +kernel), if_neg (by decide +kernel), String.splitOnAux,
    if_pos (by decide +kernel)]
  decide +kernel

theorem words_e : words "e" = ["e"] := by
  rw [words, String.splitOn, if_neg (by decide +kernel), String.splitOnAux,
    if_neg (by decide +kernel), if_neg (by decide +kernel), String.splitOnAux,
    if_pos (by decide +kernel)]
  decide +kernel

/-- The entry route takes precedence over the wildcard, though only the stage with the wildcard
receives what is published under its key. -/
theorem catchAll_labels_e :
    catchAll.postInit = .ok () ∧ catchAll.workflowEntryRoutingKey "custom" = .ok "e" ∧
      catchAll.resolveWorkflowStage "e" = .ok "docsearch" ∧
      ¬∃ s ∈ catchAll.stages, s.name = "docsearch" ∧ Receives s "e" := by
  refine ⟨rfl, rfl, rfl, ?_⟩
  rintro ⟨s, member, named, key, bound, produces⟩
  obtain rfl : key = "d" := by
    have keys : ∀ s ∈ catchAll.stages, s.name = "docsearch" →
        ∀ key ∈ strippedItems s.bindingKeys, key = "d" := by decide +kernel
    exact keys s member named key bound
  rw [words_d, words_e, produces_cons_iff (by decide)] at produces
  exact absurd produces.1 (by decide)

end SharedStatusWorkflowTopology

end Relayna.Topology
