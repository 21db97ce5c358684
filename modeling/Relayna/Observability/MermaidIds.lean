import Relayna.Contracts.Aliases
import Relayna.Foundation.Fresh
import Relayna.Foundation.Names

/-!
# Identifiers for Mermaid

The nodes of a diagram need identifiers of letters, digits and underscores. Different names may
have the same letters and digits, so an identifier that is taken gets a number.

`_build_mermaid_node_ids` is the same for execution graphs and for workflow graphs. A search takes
at most `fuel` steps here.
-/
namespace Relayna.Mermaid

open Python Contracts Fresh

/-- `[0-9A-Za-z_]`. -/
def isWord (c : Char) : Bool := c.isAlphanum || c = '_'

def sanitizeMermaidIdentifier (name : String) : String :=
  let sanitized := String.ofList
    (stripChars (· = '_') (name.toList.map fun c => if isWord c then c else '_'))
  if sanitized ≠ "" then sanitized else "node"

def base (idPrefix name : String) : String := idPrefix ++ "_" ++ sanitizeMermaidIdentifier name

/-- The candidates of a name: its base, and the base with the numbers from 2 on. -/
def candidate (idPrefix name : String) : Nat → String
  | 0 => base idPrefix name
  | n + 1 => base idPrefix name ++ "_" ++ toString (n + 2)

/-- The identifiers so far, and those that are used. -/
abbrev Assigned := Fields String × List String

def assign (fuel : Nat) (idPrefix : String) (assigned : Assigned) (name : String) :
    Option Assigned :=
  (firstFree (candidate idPrefix name) assigned.2 fuel 0).map fun found =>
    (assigned.1.set name found, found :: assigned.2)

def buildMermaidNodeIds (fuel : Nat) (names : List String) (idPrefix : String) :
    Option (Fields String) :=
  (names.foldlM (assign fuel idPrefix) ([], [])).map Prod.fst

/-! ## Candidates -/

theorem isWord_of_mem_toString {n : Nat} {c : Char} (h : c ∈ (toString n).toList) :
    isWord c = true := by
  have digit := Names.isDigit_of_mem_toString h
  simp [isWord, Char.isAlphanum, digit]

theorem candidate_injective (idPrefix name : String) :
    Function.Injective (candidate idPrefix name) := by
  have longer : ∀ n, base idPrefix name ≠ candidate idPrefix name (n + 1) := by
    intro n same
    have lengths := congrArg String.length same
    simp only [candidate, String.length_append] at lengths
    have : "_".length = 1 := rfl
    omega
  intro n m same
  match n, m with
  | 0, 0 => rfl
  | 0, m + 1 => exact absurd same (longer m)
  | n + 1, 0 => exact absurd same.symm (longer n)
  | n + 1, m + 1 =>
    have numbers := Names.toString_inj (Names.append_left_inj same)
    omega

theorem isWord_sanitize {name : String} {c : Char}
    (h : c ∈ (sanitizeMermaidIdentifier name).toList) : isWord c = true := by
  rw [sanitizeMermaidIdentifier] at h
  split_ifs at h with some_
  · rw [String.toList_ofList, stripChars, List.mem_reverse] at h
    have mapped := List.mem_reverse.mp ((List.dropWhile_sublist _).mem h)
    obtain ⟨d, -, rfl⟩ := List.mem_map.mp ((List.dropWhile_sublist _).mem mapped)
    split_ifs with word
    · exact word
    · rfl
  · exact List.all_eq_true.mp (by decide) c h

theorem isWord_candidate {idPrefix name : String} {n : Nat}
    (word : ∀ c ∈ idPrefix.toList, isWord c = true) :
    ∀ c ∈ (candidate idPrefix name n).toList, isWord c = true := by
  have underscore : ∀ c ∈ "_".toList, isWord c = true := List.all_eq_true.mp (by decide)
  have based : ∀ c ∈ (base idPrefix name).toList, isWord c = true := by
    intro c hc
    rw [base, String.toList_append, String.toList_append, List.mem_append, List.mem_append] at hc
    rcases hc with (hc | hc) | hc
    · exact word c hc
    · exact underscore c hc
    · exact isWord_sanitize hc
  cases n with
  | zero => exact based
  | succ n =>
    intro c hc
    rw [candidate, String.toList_append, String.toList_append, List.mem_append,
      List.mem_append] at hc
    rcases hc with (hc | hc) | hc
    · exact based c hc
    · exact underscore c hc
    · exact isWord_of_mem_toString hc

theorem begins_candidate {idPrefix name : String} {n : Nat} :
    (idPrefix ++ "_").toList <+: (candidate idPrefix name n).toList := by
  cases n <;> simp [candidate, base, String.toList_append]

/-! ## Assignments -/

theorem foldlM_assign_mono {fuel more : Nat} {idPrefix : String} {names : List String}
    {assigned done : Assigned} (h : names.foldlM (assign fuel idPrefix) assigned = some done)
    (le : fuel ≤ more) : names.foldlM (assign more idPrefix) assigned = some done := by
  induction names generalizing assigned with
  | nil => exact h
  | cons name names ih =>
    rw [List.foldlM_cons] at h ⊢
    obtain ⟨next, first, rest⟩ := Option.bind_eq_some_iff.mp h
    obtain ⟨found, search, rfl⟩ := Option.map_eq_some_iff.mp first
    refine Option.bind_eq_some_iff.mpr ⟨_, ?_, ih rest⟩
    rw [assign, firstFree_mono search le, Option.map_some]

/-- The identifiers so far differ, and belong to the names so far. -/
structure Assigned.Good (idPrefix : String) (names : List String) (assigned : Assigned) : Prop where
  keys : assigned.1.map Prod.fst = names
  used : assigned.1.map Prod.snd = assigned.2.reverse
  distinct : assigned.2.Nodup
  made : ∀ id ∈ assigned.2, ∃ name n, id = candidate idPrefix name n

theorem foldlM_assign {idPrefix : String} {names before : List String} {assigned : Assigned}
    (distinct : (before ++ names).Nodup) (good : assigned.Good idPrefix before) (fuel : Nat)
    (enough : before.length + names.length < fuel) :
    ∃ done, names.foldlM (assign fuel idPrefix) assigned = some done ∧
      done.Good idPrefix (before ++ names) := by
  induction names generalizing before assigned with
  | nil =>
    rw [List.append_nil]
    exact ⟨assigned, rfl, good⟩
  | cons name names ih =>
    have length : assigned.2.length = before.length := by
      rw [← List.length_reverse, ← good.used, ← good.keys, List.length_map, List.length_map]
    rw [List.length_cons] at enough
    have room : assigned.2.length < fuel := by omega
    obtain ⟨found, search⟩ := exists_firstFree (candidate_injective idPrefix name) 0 room
    obtain ⟨free, n, rfl⟩ := firstFree_some search
    have new : name ∉ assigned.1.map Prod.fst := by
      rw [good.keys]
      exact fun mem => List.disjoint_of_nodup_append distinct mem List.mem_cons_self
    have set : assigned.1.set name (candidate idPrefix name n) =
        assigned.1 ++ [(name, candidate idPrefix name n)] := by
      rw [Fields.set, if_neg]
      rw [Fields.has_iff]
      rintro ⟨entry, mem, rfl⟩
      exact new (List.mem_map_of_mem mem)
    have next : Assigned.Good idPrefix (before ++ [name])
        (assigned.1.set name (candidate idPrefix name n),
          candidate idPrefix name n :: assigned.2) := by
      refine ⟨?_, ?_, List.nodup_cons.mpr ⟨free, good.distinct⟩, ?_⟩
      · rw [set, List.map_append, good.keys]
        rfl
      · rw [set, List.map_append, good.used, List.reverse_cons]
        rfl
      · intro id mem
        rcases List.mem_cons.mp mem with rfl | old
        · exact ⟨name, n, rfl⟩
        · exact good.made id old
    rw [List.append_cons] at distinct ⊢
    obtain ⟨done, rest, good'⟩ := ih distinct next (by
      rw [List.length_append, List.length_singleton]
      omega)
    refine ⟨done, ?_, good'⟩
    rw [List.foldlM_cons]
    refine Option.bind_eq_some_iff.mpr ⟨_, ?_, rest⟩
    rw [assign, search, Option.map_some]

theorem exists_ids (names : List String) (distinct : names.Nodup) (idPrefix : String) :
    ∃ ids, (∀ fuel, names.length < fuel → buildMermaidNodeIds fuel names idPrefix = some ids) ∧
      ids.map Prod.fst = names ∧ (ids.map Prod.snd).Nodup ∧
      ∀ id ∈ ids.map Prod.snd, ∃ name n, id = candidate idPrefix name n := by
  have start : Assigned.Good idPrefix [] (([], []) : Assigned) :=
    ⟨rfl, rfl, List.nodup_nil, fun _ h => absurd h List.not_mem_nil⟩
  have whole : ([] ++ names).Nodup := distinct
  obtain ⟨done, run, good⟩ := foldlM_assign whole start (names.length + 1) (by
    rw [List.length_nil]
    omega)
  refine ⟨done.1, fun fuel enough => ?_, good.keys, ?_, fun id mem => ?_⟩
  · rw [buildMermaidNodeIds, foldlM_assign_mono run enough, Option.map_some]
  · rw [good.used]
    exact List.nodup_reverse.mpr good.distinct
  · rw [good.used, List.mem_reverse] at mem
    exact good.made id mem

/-- Whatever the names are, an identifier begins with the prefix. -/
theorem begins_of_foldlM {fuel : Nat} {idPrefix : String} {names : List String}
    {assigned done : Assigned} (run : names.foldlM (assign fuel idPrefix) assigned = some done)
    (begins : ∀ id ∈ assigned.1.map Prod.snd, (idPrefix ++ "_").toList <+: id.toList) :
    ∀ id ∈ done.1.map Prod.snd, (idPrefix ++ "_").toList <+: id.toList := by
  induction names generalizing assigned with
  | nil =>
    cases run
    exact begins
  | cons name names ih =>
    rw [List.foldlM_cons] at run
    obtain ⟨next, first, rest⟩ := Option.bind_eq_some_iff.mp run
    obtain ⟨found, search, rfl⟩ := Option.map_eq_some_iff.mp first
    obtain ⟨-, n, rfl⟩ := firstFree_some search
    refine ih rest fun id mem => ?_
    obtain ⟨entry, inside, rfl⟩ := List.mem_map.mp mem
    rcases Fields.mem_set inside with old | rfl
    · exact begins _ (List.mem_map_of_mem old)
    · exact begins_candidate

theorem begins_of_build {fuel : Nat} {idPrefix : String} {names : List String}
    {ids : Fields String} (run : buildMermaidNodeIds fuel names idPrefix = some ids) :
    ∀ id ∈ ids.map Prod.snd, (idPrefix ++ "_").toList <+: id.toList := by
  obtain ⟨done, steps, rfl⟩ := Option.map_eq_some_iff.mp run
  exact begins_of_foldlM steps fun id mem => absurd mem List.not_mem_nil

/-- An identifier does not begin with two prefixes neither of which begins with the other. -/
def Unlike (idPrefix other : String) : Prop :=
  ¬(idPrefix ++ "_").toList <+: (other ++ "_").toList ∧
    ¬(other ++ "_").toList <+: (idPrefix ++ "_").toList

instance (idPrefix other : String) : Decidable (Unlike idPrefix other) := by
  unfold Unlike
  infer_instance

theorem Unlike.disjoint {idPrefix other : String} (h : Unlike idPrefix other)
    {ids others : List String}
    (begins : ∀ id ∈ ids, (idPrefix ++ "_").toList <+: id.toList)
    (begins' : ∀ id ∈ others, (other ++ "_").toList <+: id.toList) : ids.Disjoint others := by
  intro id mem mem'
  rcases List.prefix_or_prefix_of_prefix (begins id mem) (begins' id mem') with first | second
  · exact h.1 first
  · exact h.2 second

/-! ## Charts -/

/-- The nodes that `workflow_graph_mermaid` draws in one chart: the stages and the entry routes. -/
def workflowNodeIds (fuel : Nat) (stages entryRoutes : List String) :
    Option (Fields String × Fields String) := do
  let stageNodeIds ← buildMermaidNodeIds fuel stages "stage"
  let entryNodeIds ← buildMermaidNodeIds fuel entryRoutes "entry"
  return (stageNodeIds, entryNodeIds)

/-- Distinct names get distinct identifiers, which are words if the prefix is one; the identifiers
of two calls differ unless one of their prefixes begins with the other, as in a chart of stages and
entry routes. -/
theorem mermaid_node_ids (names : List String) (distinct : names.Nodup) (idPrefix : String)
    (word : ∀ c ∈ idPrefix.toList, isWord c = true) :
    (∃ ids, (∀ fuel, names.length < fuel → buildMermaidNodeIds fuel names idPrefix = some ids) ∧
      ids.map Prod.fst = names ∧ (ids.map Prod.snd).Nodup ∧
      (∀ id ∈ ids.map Prod.snd, (idPrefix ++ "_").toList <+: id.toList ∧
        ∀ c ∈ id.toList, isWord c = true) ∧
      ∀ fuel others other ids', Unlike idPrefix other →
        buildMermaidNodeIds fuel others other = some ids' →
        (ids.map Prod.snd).Disjoint (ids'.map Prod.snd)) ∧
    ∀ entryRoutes : List String, entryRoutes.Nodup →
      ∃ stageNodeIds entryNodeIds,
        (∀ fuel, names.length < fuel → entryRoutes.length < fuel →
          workflowNodeIds fuel names entryRoutes = some (stageNodeIds, entryNodeIds)) ∧
        stageNodeIds.map Prod.fst = names ∧ entryNodeIds.map Prod.fst = entryRoutes ∧
        (stageNodeIds.map Prod.snd ++ entryNodeIds.map Prod.snd).Nodup := by
  constructor
  · obtain ⟨ids, run, keys, nodup, made⟩ := exists_ids names distinct idPrefix
    refine ⟨ids, run, keys, nodup, fun id mem => ?_, fun fuel others other ids' unlike run' => ?_⟩
    · obtain ⟨name, n, rfl⟩ := made id mem
      exact ⟨begins_candidate, isWord_candidate word⟩
    · exact unlike.disjoint (begins_of_build (run _ (Nat.lt_succ_self _))) (begins_of_build run')
  · intro entryRoutes distinct'
    obtain ⟨stages, run, keys, nodup, -⟩ := exists_ids names distinct "stage"
    obtain ⟨entries, run', keys', nodup', -⟩ := exists_ids entryRoutes distinct' "entry"
    refine ⟨stages, entries, fun fuel enough enough' => ?_, keys, keys', ?_⟩
    · rw [workflowNodeIds, run fuel enough, run' fuel enough']
      rfl
    · have unlike : Unlike "stage" "entry" := by decide
      have apart := unlike.disjoint (begins_of_build (run _ (Nat.lt_succ_self _)))
        (begins_of_build (run' _ (Nat.lt_succ_self _)))
      exact List.nodup_append'.mpr ⟨nodup, nodup', apart⟩

/-- Three stages whose names have the same letters, and entry routes of the same names. -/
theorem mermaid_node_ids_suffixed :
    buildMermaidNodeIds 4 ["a.b", "a b", "a_b_2"] "stage" =
        some [("a.b", "stage_a_b"), ("a b", "stage_a_b_2"), ("a_b_2", "stage_a_b_2_2")] ∧
      buildMermaidNodeIds 4 ["a.b", "a b", "a_b_2"] "entry" =
        some [("a.b", "entry_a_b"), ("a b", "entry_a_b_2"), ("a_b_2", "entry_a_b_2_2")] ∧
      ["stage_a_b", "stage_a_b_2", "stage_a_b_2_2"].Disjoint
        ["entry_a_b", "entry_a_b_2", "entry_a_b_2_2"] ∧
      (["stage_a_b", "stage_a_b_2", "stage_a_b_2_2"] ++
        ["entry_a_b", "entry_a_b_2", "entry_a_b_2_2"]).Nodup := by
  have stages : buildMermaidNodeIds 4 ["a.b", "a b", "a_b_2"] "stage" =
      some [("a.b", "stage_a_b"), ("a b", "stage_a_b_2"), ("a_b_2", "stage_a_b_2_2")] := by
    decide +kernel
  have entries : buildMermaidNodeIds 4 ["a.b", "a b", "a_b_2"] "entry" =
      some [("a.b", "entry_a_b"), ("a b", "entry_a_b_2"), ("a_b_2", "entry_a_b_2_2")] := by
    decide +kernel
  obtain ⟨⟨ids, run, -, -, -, apart⟩, chart⟩ :=
    mermaid_node_ids ["a.b", "a b", "a_b_2"] (by decide) "stage" (List.all_eq_true.mp (by decide))
  cases (run 4 (by decide)).symm.trans stages
  obtain ⟨stageIds, entryIds, drawn, -, -, nodup⟩ := chart ["a.b", "a b", "a_b_2"] (by decide)
  have drawn' := drawn 4 (by decide) (by decide)
  rw [workflowNodeIds, stages, entries] at drawn'
  cases drawn'
  exact ⟨stages, entries, apart 4 _ "entry" _ (by decide) entries, nodup⟩

end Relayna.Mermaid
