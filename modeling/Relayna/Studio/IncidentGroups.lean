import Relayna.Contracts.Aliases
import Relayna.Foundation.Failing
import Relayna.Foundation.Forest
import Relayna.Studio.Incidents

/-!
# Incidents are a partition

Whatever is discovered, changed, merged and split, the merges stay grounded and within one
environment and service. A scan therefore finds, for every failure, exactly one incident that is
not merged, and the counts of these incidents add up to the failures of the scan.
-/
namespace Relayna.Studio.Incidents

open Python Contracts Forest

/-! ## Merge targets -/

section Targets

variable {states : List Incident} {row i : Incident} {id next x : String}
  {g : Incident → Incident}

/-- Where a row points. -/
def Incident.into (i : Incident) : Option String := i.mergedInto.filter (· ≠ "")

theorem target_of_find (found : find id states = some i) : target states id = i.into := by
  rw [target, found]
  rfl

theorem target_of_absent (absent : find id states = none) : target states id = none := by
  rw [target, absent]
  rfl

theorem find_isSome : (find id states).isSome = true ↔ id ∈ states.map Incident.incidentId := by
  rw [find, Keyed.get?, List.find?_isSome, List.mem_map]
  simp

theorem find_append : find x (states ++ [row]) =
    (find x states).or (if row.incidentId = x then some row else none) := by
  simp [find, Keyed.get?, List.find?_append, List.find?_singleton]

theorem target_append (unmerged : row.into = none) : target (states ++ [row]) = target states := by
  funext x
  cases found : find x states with
  | some i =>
    have later : find x (states ++ [row]) = some i := by rw [find_append, found, Option.some_or]
    rw [target_of_find found, target_of_find later]
  | none =>
    rw [target_of_absent found]
    by_cases here : row.incidentId = x
    · have later : find x (states ++ [row]) = some row := by
        rw [find_append, found, if_pos here, Option.none_or]
      rw [target_of_find later, unmerged]
    · refine target_of_absent ?_
      rw [find_append, found, if_neg here, Option.none_or]

theorem find_amend (keeps : ∀ i, (g i).incidentId = i.incidentId) :
    find x (Keyed.amend Incident.incidentId id g states) =
      if x = id then (find id states).map g else find x states :=
  Keyed.get?_amend keeps

theorem target_amend (keeps : ∀ i, (g i).incidentId = i.incidentId)
    (into : ∀ i, (g i).into = i.into) :
    target (Keyed.amend Incident.incidentId id g states) = target states := by
  funext x
  by_cases here : x = id
  · subst here
    cases found : find x states with
    | none =>
      rw [target_of_absent found, target_of_absent]
      rw [find_amend keeps, if_pos rfl, found, Option.map_none]
    | some i =>
      rw [target_of_find found, ← into, target_of_find]
      rw [find_amend keeps, if_pos rfl, found, Option.map_some]
  · rw [target, target, find_amend keeps, if_neg here]

theorem target_link (keeps : ∀ i, (g i).incidentId = i.incidentId)
    (into : ∀ i, (g i).into = some next) (present : find id states = some i) :
    target (Keyed.amend Incident.incidentId id g states) =
      Function.update (target states) id (some next) := by
  funext x
  by_cases here : x = id
  · subst here
    rw [Function.update_self, ← into i, target_of_find]
    rw [find_amend keeps, if_pos rfl, present, Option.map_some]
  · rw [Function.update_of_ne here, target, target, find_amend keeps, if_neg here]

end Targets

/-! ## Walks -/

/-- On grounded merges the walk raises nothing and ends at a root. -/
theorem resolve_ok {states : List Incident} (grounded : Grounded (target states)) (id : String) :
    ∃ root, resolve states [] id = .ok root ∧ Reaches (target states) id root ∧
      target states root = none := by
  obtain ⟨root, reach, ends⟩ := grounded id
  refine ⟨root, ?_, reach, ends⟩
  -- What was visited leads to where the walk is.
  have walks (visited : List String) (before : ∀ v ∈ visited, Leads (target states) v id) :
      resolve states visited id = .ok root := by
    induction reach using Relation.ReflTransGen.head_induction_on generalizing visited with
    | refl =>
      rw [resolve]
      split
      · rfl
      · rename_i next points
        rw [ends] at points
        cases points
    | @head x y step rest ih =>
      rw [resolve]
      split
      · rename_i points
        rw [step] at points
        cases points
      · rename_i next points
        obtain rfl := Option.some.inj (step.symm.trans points)
        have new : x ∉ visited := fun again => grounded.acyclic x (before x again)
        rw [dif_neg new]
        refine ih (x :: visited) ?_
        rw [List.forall_mem_cons]
        exact ⟨.single step, fun v hv => (before v hv).tail step⟩
  exact walks [] (List.forall_mem_nil _)

/-! ## Rows whose merges come to an end -/

structure Sound (states : List Incident) : Prop where
  ids : (states.map Incident.incidentId).Nodup
  closed : ∀ i ∈ states, ∀ next, i.into = some next →
    ∃ j ∈ states, j.incidentId = next ∧ j.scope = i.scope
  grounded : Grounded (target states)

namespace Sound

variable {states : List Incident} {row i : Incident} {id next : String} {g : Incident → Incident}

theorem nil : Sound [] where
  ids := .nil
  closed := List.forall_mem_nil _
  grounded x := ⟨x, .refl, rfl⟩

theorem find_of_mem (h : Sound states) (hi : i ∈ states) : find i.incidentId states = some i :=
  Keyed.get?_of_mem h.ids hi

theorem append (h : Sound states) (new : row.incidentId ∉ states.map Incident.incidentId)
    (unmerged : row.into = none) : Sound (states ++ [row]) where
  ids := by
    rw [List.map_append, List.map_singleton, List.nodup_append]
    refine ⟨h.ids, List.nodup_singleton _, fun id hid id' hid' same => ?_⟩
    exact new (List.mem_singleton.mp hid' ▸ same ▸ hid)
  closed := by
    intro i hi next into
    rcases List.mem_append.mp hi with old | here
    · obtain ⟨j, hj, same⟩ := h.closed i old next into
      exact ⟨j, List.mem_append_left _ hj, same⟩
    · rw [List.mem_singleton.mp here, unmerged] at into
      cases into
  grounded := by
    rw [target_append unmerged]
    exact h.grounded

/-- A change that leaves the id, the scope and the merge of a row. -/
theorem amend (h : Sound states) (keeps : ∀ i, (g i).incidentId = i.incidentId)
    (scope : ∀ i, (g i).scope = i.scope) (into : ∀ i, (g i).into = i.into) :
    Sound (Keyed.amend Incident.incidentId id g states) where
  ids := by
    rw [Keyed.map_key_amend keeps]
    exact h.ids
  closed := by
    intro i' hi' next points
    -- The row was there before, up to what the change leaves.
    obtain ⟨i, hi, sameScope, sameInto⟩ :
        ∃ i ∈ states, i'.scope = i.scope ∧ i'.into = i.into := by
      rcases Keyed.mem_amend hi' with old | ⟨i, found, rfl⟩
      · exact ⟨i', old, rfl, rfl⟩
      · exact ⟨i, Keyed.mem_of_get? found, scope i, into i⟩
    obtain ⟨j, hj, named, here⟩ := h.closed i hi next (sameInto ▸ points)
    rcases Keyed.mem_amend_of_mem (g := g) (k := id) hj with kept | ⟨-, changed⟩
    · exact ⟨j, kept, named, here.trans sameScope.symm⟩
    · exact ⟨g j, changed, (keeps j).trans named, (scope j).trans (here.trans sameScope.symm)⟩
  grounded := by
    rw [target_amend keeps into]
    exact h.grounded

/-- A row that is not merged is merged into another one of its scope. -/
theorem link {source target : Incident} (h : Sound states) (hs : source ∈ states)
    (ht : target ∈ states) (unmerged : source.into = none) (root : target.into = none)
    (other : source.incidentId ≠ target.incidentId) (same : source.scope = target.scope)
    (keeps : ∀ i, (g i).incidentId = i.incidentId) (scope : ∀ i, (g i).scope = i.scope)
    (into : ∀ i, (g i).into = some target.incidentId) :
    Sound (Keyed.amend Incident.incidentId source.incidentId g states) where
  ids := by
    rw [Keyed.map_key_amend keeps]
    exact h.ids
  closed := by
    intro i' hi' next points
    obtain ⟨j, hj, named, here⟩ : ∃ j ∈ states, j.incidentId = next ∧ j.scope = i'.scope := by
      rcases Keyed.mem_amend hi' with old | ⟨i, found, rfl⟩
      · exact h.closed i' old next points
      · obtain rfl := Option.some.inj (found.symm.trans (h.find_of_mem hs))
        rw [into, Option.some.injEq] at points
        exact ⟨target, ht, points, same.symm.trans (scope i).symm⟩
    rcases Keyed.mem_amend_of_mem (g := g) (k := source.incidentId) hj with kept | ⟨-, changed⟩
    · exact ⟨j, kept, named, here⟩
    · exact ⟨g j, changed, (keeps j).trans named, (scope j).trans here⟩
  grounded := by
    rw [target_link keeps into (h.find_of_mem hs)]
    refine h.grounded.link ?_ ?_ other
    · rw [target_of_find (h.find_of_mem hs), unmerged]
    · rw [target_of_find (h.find_of_mem ht), root]

/-- What is left when some scopes are left out. -/
theorem filter (h : Sound states) (p : Scope → Bool) :
    Sound (states.filter fun i => p i.scope) := by
  have found {x : String} {i : Incident} (hi : find x (states.filter fun i => p i.scope) = some i) :
      find x states = some i := by
    have kept := List.mem_filter.mp (Keyed.mem_of_get? hi)
    rw [← Keyed.key_of_get? hi]
    exact h.find_of_mem kept.1
  have ids : ((states.filter fun i => p i.scope).map Incident.incidentId).Nodup :=
    h.ids.sublist (List.filter_sublist.map _)
  have closed : ∀ i ∈ states.filter (fun i => p i.scope), ∀ next, i.into = some next →
      ∃ j ∈ states.filter fun i => p i.scope, j.incidentId = next ∧ j.scope = i.scope := by
    intro i hi next points
    rw [List.mem_filter] at hi
    obtain ⟨j, hj, named, here⟩ := h.closed i hi.1 next points
    exact ⟨j, List.mem_filter.mpr ⟨hj, here ▸ hi.2⟩, named, here⟩
  refine ⟨ids, closed, fun x => ?_⟩
  obtain ⟨root, reach, ends⟩ := h.grounded x
  induction reach using Relation.ReflTransGen.head_induction_on with
  | refl =>
    refine ⟨root, .refl, ?_⟩
    cases left : find root (states.filter fun i => p i.scope) with
    | none => exact target_of_absent left
    | some i =>
      rw [target_of_find left, ← target_of_find (found left)]
      exact ends
  | @head x y step rest ih =>
    cases left : find x (states.filter fun i => p i.scope) with
    | none => exact ⟨x, .refl, target_of_absent left⟩
    | some i =>
      obtain ⟨root', reach', ends'⟩ := ih
      refine ⟨root', reach'.head ?_, ends'⟩
      rw [target_of_find left, ← target_of_find (found left)]
      exact step

/-- The walk from a row ends at a row of its scope that is not merged. -/
theorem resolve (h : Sound states) (hi : i ∈ states) : ∃ root ∈ states,
    resolve states [] i.incidentId = .ok root.incidentId ∧ root.scope = i.scope ∧
      root.into = none := by
  obtain ⟨end₀, done, reach, ends⟩ := resolve_ok h.grounded i.incidentId
  have stays : ∃ j ∈ states, j.incidentId = end₀ ∧ j.scope = i.scope := by
    clear done ends
    induction reach with
    | refl => exact ⟨i, hi, rfl, rfl⟩
    | tail _ step ih =>
      obtain ⟨j, hj, rfl, here⟩ := ih
      rw [target_of_find (h.find_of_mem hj)] at step
      obtain ⟨k, hk, named, there⟩ := h.closed j hj _ step
      exact ⟨k, hk, named, there.trans here⟩
  obtain ⟨root, hr, rfl, here⟩ := stays
  refine ⟨root, hr, done, here, ?_⟩
  rwa [target_of_find (h.find_of_mem hr)] at ends

end Sound

/-! ## Transactions -/

/-- What a scan is asked for, and what the feeds answer. -/
structure ScanRequest where
  services : List Service
  distinct : (services.map Service.serviceId).Nodup
  pageBudget : Nat := 20
  answer : String → Nat → Answer
  environment : Option String := none
  serviceId : Option String := none
  now : Int

def ScanRequest.scan (q : ScanRequest) : Scan :=
  Incidents.scan q.services q.pageBudget q.answer q.environment q.serviceId q.now

inductive Transaction
  | snapshot (q : ScanRequest)
  | change (id : String) (revision : Nat) (changes : Changes) (note : String)
  | merge (sourceId : String) (revision : Nat) (targetId : String) (targetRevision : Nat)
  | split (id : String) (revision : Nat) (failureIds : List String) (observed : Fields String)
      (newId : String)

/-- What was committed, or what was there. -/
def committed (t : Tables) : Except Failure Tables → Tables
  | .ok t' => t'
  | .error _ => t

def Tables.after (c : Builtins) (t : Tables) : Transaction → Tables
  | .snapshot q => t.discoverAll (c.discoveries q.scan.evidence)
  | .change id revision changes note => committed t (t.change id revision changes note)
  | .merge sourceId revision targetId targetRevision =>
    committed t (t.merge sourceId revision targetId targetRevision)
  | .split id revision failureIds observed newId =>
    committed t (t.split id revision failureIds observed newId)

def Tables.run (c : Builtins) (ls : List Transaction) : Tables := ls.foldl (·.after c ·) {}

def Transaction.evidence : Transaction → List Evidence
  | .snapshot q => q.scan.evidence
  | _ => []

def Transaction.newIds : Transaction → List String
  | .split _ _ _ _ newId => [newId]
  | _ => []

/-- The hash tells the dimensions that were scanned apart. Its digests have 64 characters and the
ids that `uuid.uuid4().hex` makes have 32. -/
structure HashesApart (c : Builtins) (ls : List Transaction) : Prop where
  apart : ∀ e ∈ ls.flatMap Transaction.evidence, ∀ e' ∈ ls.flatMap Transaction.evidence,
    c.groupId (c.dimensions e) = c.groupId (c.dimensions e') → c.dimensions e = c.dimensions e'
  digests : ∀ e ∈ ls.flatMap Transaction.evidence, (c.groupId (c.dimensions e)).length = 64
  uuids : ∀ id ∈ ls.flatMap Transaction.newIds, id.length = 32

structure Valid (c : Builtins) (evidence : List Evidence) (newIds : List String) (t : Tables) :
    Prop where
  sound : Sound t.incidents
  origin : ∀ i ∈ t.incidents, i.incidentId ∈ newIds ∨
    ∃ e ∈ evidence, i.incidentId = c.naturalId e ∧ i.scope = e.scope
  overridden : ∀ o ∈ t.overrides, ∃ i ∈ t.incidents, i.incidentId = o.incidentId ∧ i.scope = o.scope

namespace Valid

variable {c : Builtins} {evidence : List Evidence} {newIds : List String} {t t' : Tables}

theorem empty : Valid c evidence newIds {} :=
  ⟨.nil, List.forall_mem_nil _, List.forall_mem_nil _⟩

/-- A row more. -/
theorem append {row : Incident} (h : Valid c evidence newIds t) (new : row.incidentId ∉ t.ids)
    (unmerged : row.into = none) (origin : row.incidentId ∈ newIds ∨
      ∃ e ∈ evidence, row.incidentId = c.naturalId e ∧ row.scope = e.scope) :
    Valid c evidence newIds { t with incidents := t.incidents ++ [row] } where
  sound := h.sound.append new unmerged
  origin := by
    intro i hi
    rcases List.mem_append.mp hi with old | here
    · exact h.origin i old
    · exact List.mem_singleton.mp here ▸ origin
  overridden := by
    intro o ho
    obtain ⟨i, hi, same⟩ := h.overridden o ho
    exact ⟨i, List.mem_append_left _ hi, same⟩

/-- A row is changed, and its id and scope are not. -/
theorem amend {id : String} {g : Incident → Incident} (h : Valid c evidence newIds t)
    (keeps : ∀ i, (g i).incidentId = i.incidentId) (scope : ∀ i, (g i).scope = i.scope)
    (sound : Sound (t.amend id g).incidents) : Valid c evidence newIds (t.amend id g) where
  sound := sound
  origin := by
    intro i' hi'
    rcases Keyed.mem_amend hi' with old | ⟨i, found, rfl⟩
    · exact h.origin i' old
    · rw [keeps, scope]
      exact h.origin i (Keyed.mem_of_get? found)
  overridden := by
    intro o ho
    obtain ⟨i, hi, named, here⟩ := h.overridden o ho
    rcases Keyed.mem_amend_of_mem (g := g) (k := id) hi with kept | ⟨-, changed⟩
    · exact ⟨i, kept, named, here⟩
    · exact ⟨g i, changed, (keeps i).trans named, (scope i).trans here⟩

theorem incidents_override {o : Override} : (t.override o).incidents = t.incidents := by
  unfold Tables.override
  split <;> rfl

theorem override {o : Override} (h : Valid c evidence newIds t)
    (given : ∃ i ∈ t.incidents, i.incidentId = o.incidentId ∧ i.scope = o.scope) :
    Valid c evidence newIds (t.override o) := by
  unfold Tables.override
  split
  · refine ⟨h.sound, h.origin, fun o' ho' => ?_⟩
    rcases Keyed.mem_amend ho' with old | ⟨old, found, rfl⟩
    · exact h.overridden o' old
    · have here : old.scope = o.scope := congrArg Prod.fst (Keyed.key_of_get? found)
      obtain ⟨i, hi, named, same⟩ := given
      exact ⟨i, hi, named, same.trans here.symm⟩
  · refine ⟨h.sound, h.origin, fun o' ho' => ?_⟩
    rcases List.mem_append.mp ho' with old | here
    · exact h.overridden o' old
    · exact List.mem_singleton.mp here ▸ given

theorem discover {e : Evidence} (h : Valid c evidence newIds t) (he : e ∈ evidence) :
    Valid c evidence newIds (t.discover (c.naturalId e) (c.dimensions e)) := by
  unfold Tables.discover
  split
  · exact h
  · rename_i new
    exact h.append new rfl (Or.inr ⟨e, he, rfl, rfl⟩)

theorem mem_discoveries {scanned : List Evidence} {entry : String × Dimensions}
    (h : entry ∈ c.discoveries scanned) :
    ∃ e ∈ scanned, entry = (c.naturalId e, c.dimensions e) := by
  unfold Builtins.discoveries at h
  induction scanned using List.reverseRecOn with
  | nil => simp at h
  | append_singleton scanned e ih =>
    rw [List.foldl_append] at h
    rcases Fields.mem_set h with old | here
    · obtain ⟨e', he', same⟩ := ih old
      exact ⟨e', List.mem_append_left _ he', same⟩
    · exact ⟨e, List.mem_append_right _ (List.mem_singleton_self e), here⟩

theorem naturalId_mem_discoveries {scanned : List Evidence} {e : Evidence} (he : e ∈ scanned) :
    ∃ d, (c.naturalId e, d) ∈ c.discoveries scanned := by
  have kept : (c.discoveries scanned).has (c.naturalId e) = true := by
    unfold Builtins.discoveries
    induction scanned using List.reverseRecOn with
    | nil => simp at he
    | append_singleton scanned e' ih =>
      rw [List.foldl_append, List.foldl_cons, List.foldl_nil, Fields.has_set]
      rcases List.mem_append.mp he with old | here
      · exact Or.inl (ih old)
      · exact Or.inr (congrArg c.naturalId (List.mem_singleton.mp here))
  obtain ⟨entry, hentry, same⟩ := Fields.has_iff.mp kept
  exact ⟨entry.2, same ▸ hentry⟩

/-- What every discovery keeps is kept by all that a scan discovers. -/
theorem keeps_discoverAll {P : Tables → Prop} {scanned : List Evidence}
    (keeps : ∀ {t e}, e ∈ evidence → P t → P (t.discover (c.naturalId e) (c.dimensions e)))
    (sub : ∀ e ∈ scanned, e ∈ evidence) (h : P t) :
    P (t.discoverAll (c.discoveries scanned)) := by
  have known : ∀ entry ∈ (c.discoveries scanned).insertionSort fun a b => a.1 ≤ b.1,
      ∃ e ∈ evidence, entry = (c.naturalId e, c.dimensions e) := by
    intro entry hentry
    obtain ⟨e, he, same⟩ := mem_discoveries ((List.mem_insertionSort _).mp hentry)
    exact ⟨e, sub e he, same⟩
  unfold Tables.discoverAll
  generalize (c.discoveries scanned).insertionSort (fun a b => a.1 ≤ b.1) = entries at known
  induction entries generalizing t with
  | nil => exact h
  | cons entry entries ih =>
    rw [List.forall_mem_cons] at known
    obtain ⟨⟨e, he, rfl⟩, rest⟩ := known
    exact ih (keeps he h) rest

theorem discoverAll {scanned : List Evidence} (h : Valid c evidence newIds t)
    (sub : ∀ e ∈ scanned, e ∈ evidence) :
    Valid c evidence newIds (t.discoverAll (c.discoveries scanned)) :=
  keeps_discoverAll (fun he h => h.discover he) sub h

end Valid

/-- Every failure of the scan has its natural incident after the snapshot. -/
theorem naturalId_mem_ids {c : Builtins} {t : Tables} {scanned : List Evidence} {e : Evidence}
    (he : e ∈ scanned) : c.naturalId e ∈ (t.discoverAll (c.discoveries scanned)).ids := by
  have grows (t : Tables) (key : String) (dims : Dimensions) {id : String} (old : id ∈ t.ids) :
      id ∈ (t.discover key dims).ids := by
    unfold Tables.discover
    split
    · exact old
    · simp only [Tables.ids, List.map_append, List.mem_append]
      exact Or.inl old
  have adds (t : Tables) (key : String) (dims : Dimensions) : key ∈ (t.discover key dims).ids := by
    unfold Tables.discover
    split
    · assumption
    · simp [Tables.ids]
  obtain ⟨d, hd⟩ := Valid.naturalId_mem_discoveries (c := c) he
  have listed := (List.mem_insertionSort (fun a b : String × Dimensions => a.1 ≤ b.1)).mpr hd
  unfold Tables.discoverAll
  generalize (c.discoveries scanned).insertionSort (fun a b => a.1 ≤ b.1) = entries at listed
  have stays (entries : Fields Dimensions) (t : Tables) {id : String} (old : id ∈ t.ids) :
      id ∈ (entries.foldl (fun t d => t.discover d.1 d.2) t).ids := by
    induction entries generalizing t with
    | nil => exact old
    | cons entry entries ih => exact ih _ (grows t _ _ old)
  induction entries generalizing t with
  | nil => simp at listed
  | cons entry entries ih =>
    rcases List.mem_cons.mp listed with rfl | later
    · exact stays entries _ (adds t _ _)
    · exact ih later

/-! ### Corrections -/

theorem locked_ok {t : Tables} {id : String} {revision : Nat} {row : Incident}
    (h : t.locked id revision = .ok row) :
    find id t.incidents = some row ∧ row.revision = revision ∧ row.into = none := by
  unfold Tables.locked at h
  split at h
  · cases h
  · rename_i found
    split at h
    · cases h
    · rename_i current
      obtain rfl := Except.ok.inj h
      rw [not_or, not_not, Bool.not_eq_true] at current
      refine ⟨found, current.1, ?_⟩
      rw [Incident.merged, Option.isSome_eq_false_iff, Option.isNone_iff_eq_none] at current
      exact current.2

namespace Valid

variable {c : Builtins} {evidence : List Evidence} {newIds : List String} {t t' : Tables}

theorem change {id : String} {revision : Nat} {changes : Changes} {note : String}
    (h : Valid c evidence newIds t) (done : t.change id revision changes note = .ok t') :
    Valid c evidence newIds t' := by
  obtain ⟨row, -, done⟩ := Failing.bind_ok.mp done
  split at done
  · cases done
  · obtain rfl := Except.ok.inj done
    exact h.amend (fun _ => rfl) (fun _ => rfl)
      (h.sound.amend (fun _ => rfl) (fun _ => rfl) fun _ => rfl)

/-- No id is empty. -/
theorem named (h : Valid c evidence newIds t)
    (digests : ∀ e ∈ evidence, (c.naturalId e).length = 64) (uuids : ∀ id ∈ newIds, id.length = 32)
    {i : Incident} (hi : i ∈ t.incidents) : i.incidentId ≠ "" := by
  intro blank
  rcases h.origin i hi with uuid | ⟨e, he, digest, -⟩
  · have := uuids _ uuid
    rw [blank] at this
    cases this
  · have := digests e he
    rw [← digest, blank] at this
    cases this

theorem merge {sourceId targetId : String} {revision targetRevision : Nat}
    (h : Valid c evidence newIds t) (digests : ∀ e ∈ evidence, (c.naturalId e).length = 64)
    (uuids : ∀ id ∈ newIds, id.length = 32)
    (done : t.merge sourceId revision targetId targetRevision = .ok t') :
    Valid c evidence newIds t' := by
  unfold Tables.merge at done
  split at done
  · cases done
  · rename_i other
    obtain ⟨source, lockedSource, done⟩ := Failing.bind_ok.mp done
    obtain ⟨target, lockedTarget, done⟩ := Failing.bind_ok.mp done
    obtain ⟨foundSource, -, unmerged⟩ := locked_ok lockedSource
    obtain ⟨foundTarget, -, root⟩ := locked_ok lockedTarget
    split at done
    · cases done
    · rename_i same
      obtain rfl := Except.ok.inj done
      obtain rfl := Keyed.key_of_get? foundSource
      obtain rfl := Keyed.key_of_get? foundTarget
      have ht := Keyed.mem_of_get? foundTarget
      have into (i : Incident) : Incident.into { i with
          mergedInto := some target.incidentId, revision := revision + 1 } =
          some target.incidentId := by
        simp [Incident.into, h.named digests uuids ht]
      have linked : Valid c evidence newIds (t.amend source.incidentId fun row =>
          { row with mergedInto := some target.incidentId, revision := revision + 1 }) :=
        h.amend (fun _ => rfl) (fun _ => rfl)
          (h.sound.link (Keyed.mem_of_get? foundSource) ht unmerged root other (not_not.mp same)
            (fun _ => rfl) (fun _ => rfl) into)
      exact linked.amend (fun _ => rfl) (fun _ => rfl)
        (linked.sound.amend (fun _ => rfl) (fun _ => rfl) fun _ => rfl)

theorem split {id newId : String} {revision : Nat} {failureIds : List String}
    {observed : Fields String} (h : Valid c evidence newIds t) (uuid : newId ∈ newIds)
    (done : t.split id revision failureIds observed newId = .ok t') :
    Valid c evidence newIds t' := by
  obtain ⟨source, locked, done⟩ := Failing.bind_ok.mp done
  split at done
  · cases done
  · split at done
    · cases done
    · obtain ⟨t₁, inserted, rfl⟩ := Failing.map_ok.mp done
      unfold Tables.insert at inserted
      split at inserted
      · cases inserted
      · rename_i new
        obtain rfl := Except.ok.inj inserted
        have added := h.append new rfl (Or.inl uuid)
        have overridden (fs : List String) (t₁ : Tables) (h₁ : Valid c evidence newIds t₁)
            (given : ∃ i ∈ t₁.incidents, i.incidentId = newId ∧ i.scope = source.scope) :
            Valid c evidence newIds
              (fs.foldl (fun t f => t.override ⟨source.scope, f, newId⟩) t₁) := by
          induction fs generalizing t₁ with
          | nil => exact h₁
          | cons f fs ih =>
            refine ih _ (h₁.override given) ?_
            rw [incidents_override]
            exact given
        have corrected := overridden (failureIds.dedup.insertionSort (· ≤ ·)) _ added
          ⟨_, List.mem_append_right _ (List.mem_singleton_self _), rfl, rfl⟩
        exact corrected.amend (fun _ => rfl) (fun _ => rfl)
          (corrected.sound.amend (fun _ => rfl) (fun _ => rfl) fun _ => rfl)

end Valid

end Relayna.Studio.Incidents
