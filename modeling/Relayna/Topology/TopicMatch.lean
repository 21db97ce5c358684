import Mathlib.Data.List.Infix

/-!
# Topic binding keys

Two modules match routing keys against binding keys, `consumer/context.py` by a memoised
recursion over two indices and `topology/workflow_graph.py` by a loop that calls itself for a
`#`. Both are written here over what the indices leave of the words, and both decide what the
broker means by a binding key.
-/
namespace Relayna.Topology

/-- `key.split(".")`. -/
def words (key : String) : List String := key.splitOn "."

/-- The routing words that a binding stands for: each `*` is replaced by one word and each `#`
by any number of them. -/
inductive Produces : List String → List String → Prop where
  | nil : Produces [] []
  | star {binding routing : List String} (word : String) :
      Produces binding routing → Produces ("*" :: binding) (word :: routing)
  | hash {binding routing : List String} (replaced : List String) :
      Produces binding routing → Produces ("#" :: binding) (replaced ++ routing)
  | word {binding routing : List String} {token : String} :
      token ≠ "*" → token ≠ "#" → Produces binding routing →
      Produces (token :: binding) (token :: routing)

namespace Context

/-- `_matches` of `consumer/context.py`. -/
def matchesAt : List String → List String → Bool
  | [], routing => routing.isEmpty
  | token :: binding, routing =>
    if token = "#" then
      matchesAt binding routing ||
        match routing with
        | [] => false
        | _ :: rest => matchesAt (token :: binding) rest
    else
      match routing with
      | [] => false
      | word :: rest => if token = "*" ∨ token = word then matchesAt binding rest else false
  termination_by binding routing => binding.length + routing.length

/-- `_topic_binding_matches` of `consumer/context.py`. -/
def topicBindingMatches (bindingKey routingKey : String) : Bool :=
  matchesAt (words bindingKey) (words routingKey)

end Context

namespace WorkflowGraph

/-- `_matches_parts`. A `#` at the end matches whatever is left. -/
def matchesParts : List String → List String → Bool
  | [], routing => routing.isEmpty
  | token :: binding, routing =>
    if token = "#" then
      if binding = [] then true else routing.tails.any (matchesParts binding)
    else
      match routing with
      | [] => false
      | word :: rest => if token ≠ "*" ∧ token ≠ word then false else matchesParts binding rest

/-- `_topic_binding_matches` of `topology/workflow_graph.py`. -/
def topicBindingMatches (bindingKey routingKey : String) : Bool :=
  matchesParts (words bindingKey) (words routingKey)

end WorkflowGraph

section Spec

variable {token word : String} {binding routing : List String}

theorem produces_nil_iff : Produces [] routing ↔ routing = [] := by
  constructor
  · rintro ⟨⟩
    rfl
  · rintro rfl
    exact .nil

/-- A `#` leaves some end of the routing words to the rest of the binding. -/
theorem produces_hash_iff :
    Produces ("#" :: binding) routing ↔ ∃ rest, rest <:+ routing ∧ Produces binding rest := by
  constructor
  · intro h
    generalize hb : "#" :: binding = pattern at h
    cases h with
    | nil => simp at hb
    | star => simp at hb
    | hash replaced h =>
      obtain rfl := (List.cons.inj hb).2
      exact ⟨_, List.suffix_append replaced _, h⟩
    | word _ ne => exact (ne (List.cons.inj hb).1.symm).elim
  · rintro ⟨rest, ⟨replaced, rfl⟩, h⟩
    exact .hash replaced h

theorem produces_hash_nil_iff : Produces ("#" :: binding) [] ↔ Produces binding [] := by
  simp [produces_hash_iff, List.suffix_nil]

theorem produces_hash_cons_iff :
    Produces ("#" :: binding) (word :: routing) ↔
      Produces binding (word :: routing) ∨ Produces ("#" :: binding) routing := by
  simp only [produces_hash_iff, List.suffix_cons_iff, or_and_right, exists_or, exists_eq_left]

theorem not_produces_cons_nil (ne : token ≠ "#") : ¬Produces (token :: binding) [] := by
  intro h
  generalize hr : ([] : List String) = empty at h
  cases h with
  | star | word => simp at hr
  | hash => exact ne rfl

theorem produces_cons_iff (ne : token ≠ "#") :
    Produces (token :: binding) (word :: routing) ↔
      (token = "*" ∨ token = word) ∧ Produces binding routing := by
  constructor
  · intro h
    generalize hr : word :: routing = produced at h
    cases h with
    | star _ h =>
      obtain ⟨-, rfl⟩ := List.cons.inj hr
      exact ⟨Or.inl rfl, h⟩
    | hash => exact (ne rfl).elim
    | word _ _ h =>
      obtain ⟨rfl, rfl⟩ := List.cons.inj hr
      exact ⟨Or.inr rfl, h⟩
  · rintro ⟨token_eq, h⟩
    by_cases star : token = "*"
    · exact star ▸ .star word h
    · obtain rfl : token = word := token_eq.resolve_left star
      exact .word star ne h

/-- A trailing `#` takes every word. -/
theorem produces_trailing_hash : Produces ["#"] routing := by
  have h : Produces ["#"] (routing ++ []) := .hash routing .nil
  rwa [List.append_nil] at h

end Spec

/-- The recursion over two indices decides `Produces`. -/
theorem matchesAt_iff (binding routing : List String) :
    Context.matchesAt binding routing = true ↔ Produces binding routing := by
  fun_induction Context.matchesAt binding routing with
  | case1 routing => simp [produces_nil_iff]
  | case2 binding routing skip take =>
    cases routing with
    | nil => simp [skip, produces_hash_nil_iff]
    | cons word rest => simp [skip, take, produces_hash_cons_iff]
  | case3 token binding ne => simp [not_produces_cons_nil ne]
  | case4 token binding ne word rest token_eq ih =>
    rw [ih, produces_cons_iff ne, and_iff_right token_eq]
  | case5 token binding ne word rest token_ne =>
    simp [produces_cons_iff ne, token_ne]

/-- So does the loop. -/
theorem matchesParts_iff (binding routing : List String) :
    WorkflowGraph.matchesParts binding routing = true ↔ Produces binding routing := by
  induction binding generalizing routing with
  | nil => simp [WorkflowGraph.matchesParts, produces_nil_iff]
  | cons token binding ih =>
    unfold WorkflowGraph.matchesParts
    split_ifs with hash last
    · subst hash last
      exact iff_of_true rfl produces_trailing_hash
    · subst hash
      simp [produces_hash_iff, ih]
    · cases routing with
      | nil => simp [not_produces_cons_nil hash]
      | cons word rest =>
        rw [produces_cons_iff hash, ← ih]
        by_cases token_eq : token = "*" ∨ token = word <;> simp [token_eq]

/-- The two matchers agree with each other and with the broker. -/
theorem topic_matchers_agree (bindingKey routingKey : String) :
    Context.topicBindingMatches bindingKey routingKey =
        WorkflowGraph.topicBindingMatches bindingKey routingKey ∧
      (Context.topicBindingMatches bindingKey routingKey = true ↔
        Produces (words bindingKey) (words routingKey)) := by
  have context := matchesAt_iff (words bindingKey) (words routingKey)
  have graph := matchesParts_iff (words bindingKey) (words routingKey)
  exact ⟨Bool.eq_iff_iff.mpr (context.trans graph.symm), context⟩

end Relayna.Topology
