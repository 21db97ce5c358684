import Relayna.Studio.IncidentInbox

/-!
# Corrections of incidents

A split is asked for with what a scan has observed. Other corrections may come between the scan and
the split, so the split looks again at where each observed failure belongs now. Its overrides point
at a new row that nothing else points at: rebuilding from the same scan moves the selected failures
and no other.

A correction names the revision it was made for and raises it. Revisions never fall.
-/
namespace Relayna.Studio.Incidents

open Python Contracts Forest

/-! ## Rows stay -/

/-- Rows stay in their scope and their revisions do not fall. -/
def Grows (t t' : Tables) : Prop :=
  ∀ id row, find id t.incidents = some row →
    ∃ row', find id t'.incidents = some row' ∧ row'.scope = row.scope ∧
      row.revision ≤ row'.revision

section Growth

variable {c : Builtins} {t t' t'' : Tables} {id : String}

theorem Grows.refl (t : Tables) : Grows t t := fun _ row found => ⟨row, found, rfl, le_rfl⟩

theorem Grows.trans (h : Grows t t') (h' : Grows t' t'') : Grows t t'' := by
  intro id row found
  obtain ⟨row', found', scope, le⟩ := h id row found
  obtain ⟨row'', found'', scope', le'⟩ := h' id row' found'
  exact ⟨row'', found'', scope'.trans scope, le.trans le'⟩

theorem Grows.append (overrides : List Override) (row : Incident) :
    Grows t { incidents := t.incidents ++ [row], overrides } := by
  intro id old found
  refine ⟨old, ?_, rfl, le_rfl⟩
  rw [find_append, found, Option.some_or]

theorem Grows.amend {g : Incident → Incident} (keeps : ∀ i, (g i).incidentId = i.incidentId)
    (scope : ∀ i, (g i).scope = i.scope)
    (up : ∀ row, find id t.incidents = some row → row.revision ≤ (g row).revision) :
    Grows t (t.amend id g) := by
  intro x row found
  rw [Tables.amend, find_amend keeps]
  by_cases here : x = id
  · subst here
    rw [if_pos rfl, found]
    exact ⟨g row, rfl, scope row, up row found⟩
  · rw [if_neg here]
    exact ⟨row, found, rfl, le_rfl⟩

theorem Grows.discoverAll (discoveries : Fields Dimensions) :
    Grows t (t.discoverAll discoveries) := by
  unfold Tables.discoverAll
  generalize discoveries.insertionSort (fun a b => a.1 ≤ b.1) = entries
  induction entries generalizing t with
  | nil => exact .refl t
  | cons entry entries ih =>
    refine Grows.trans (show Grows t (t.discover entry.1 entry.2) from ?_) ih
    unfold Tables.discover
    split
    · exact .refl t
    · exact .append _ _

end Growth

/-- The transaction, as it commits or raises. -/
def Tables.attempt (c : Builtins) (t : Tables) : Transaction → Except Failure Tables
  | .snapshot q => .ok (t.discoverAll (c.discoveries q.scan.evidence))
  | .change id revision changes note => t.change id revision changes note
  | .merge sourceId revision targetId targetRevision =>
    t.merge sourceId revision targetId targetRevision
  | .split id revision failureIds observed newId => t.split id revision failureIds observed newId

/-- The revisions that a correction was made for. -/
def Transaction.corrects : Transaction → List (String × Nat)
  | .snapshot _ => []
  | .change id revision _ _ => [(id, revision)]
  | .merge sourceId revision targetId targetRevision =>
    [(sourceId, revision), (targetId, targetRevision)]
  | .split id revision _ _ _ => [(id, revision)]

theorem after_eq (c : Builtins) (t : Tables) (l : Transaction) :
    t.after c l = committed t (t.attempt c l) := by
  cases l <;> rfl

/-! ## What a split does -/

/-- The overrides after those of a split. -/
def Tables.overrideAll (t : Tables) (scope : Scope) (failureIds : List String) (newId : String) :
    Tables :=
  (failureIds.dedup.insertionSort (· ≤ ·)).foldl (fun t f => t.override ⟨scope, f, newId⟩) t

/-- The row of a split. -/
def Incident.splitOff (source : Incident) (newId : String) : Incident where
  incidentId := newId
  serviceId := source.serviceId
  environment := source.environment
  dimensions := source.dimensions

structure SplitDone (t t' : Tables) (source : Incident) (failureIds : List String)
    (observed : Fields String) (newId : String) : Prop where
  unmerged : source.into = none
  new : newId ∉ t.ids
  members : ∃ members, t.members source observed = .ok members ∧ failureIds ⊆ members ∧
    ¬members ⊆ failureIds
  nonempty : failureIds ≠ []
  done : t' = ((Tables.overrideAll { t with incidents := t.incidents ++ [source.splitOff newId] }
      source.scope failureIds newId).amend source.incidentId
    fun row => { row with revision := source.revision + 1 })

theorem split_ok {t t' : Tables} {id newId : String} {revision : Nat} {failureIds : List String}
    {observed : Fields String} (done : t.split id revision failureIds observed newId = .ok t') :
    ∃ source, find id t.incidents = some source ∧ source.revision = revision ∧
      SplitDone t t' source failureIds observed newId := by
  obtain ⟨source, locked, done⟩ := Failing.bind_ok.mp done
  obtain ⟨found, current, unmerged⟩ := locked_ok locked
  obtain rfl := Keyed.key_of_get? found
  split at done
  · cases done
  · rename_i members walked
    split at done
    · cases done
    · rename_i proper
      rw [not_or, not_not] at proper
      obtain ⟨t₁, inserted, rfl⟩ := Failing.map_ok.mp done
      unfold Tables.insert at inserted
      split at inserted
      · cases inserted
      · rename_i new
        obtain rfl := Except.ok.inj inserted
        refine ⟨source, found, current, unmerged, new, ⟨members, walked, proper.2⟩, proper.1, ?_⟩
        rw [current]
        rfl

section Overrides

variable {t : Tables} {scope : Scope} {failureIds : List String} {newId : String}

/-- What an override says of a failure. -/
def Tables.overridden (t : Tables) (key : Scope × String) : Option String :=
  (Keyed.get? Override.key key t.overrides).map Override.incidentId

theorem overridden_override (o : Override) (key : Scope × String) :
    (t.override o).overridden key =
      if key = o.key then some o.incidentId else t.overridden key := by
  unfold Tables.override Tables.overridden
  split
  · rename_i present
    have keeps : ∀ old : Override, Override.key { old with incidentId := o.incidentId } = old.key :=
      fun _ => rfl
    dsimp only
    rw [Keyed.get?_amend keeps]
    split
    · obtain ⟨old, hold, same⟩ := List.mem_map.mp present
      cases found : Keyed.get? Override.key o.key t.overrides with
      | none => exact absurd present (Keyed.get?_eq_none.mp found)
      | some old => rfl
    · rfl
  · rename_i absent
    rw [Keyed.get?_append]
    by_cases here : key = o.key
    · rw [if_pos here, here, Keyed.get?_eq_none.mpr absent]
      simp [Keyed.get?]
    · rw [if_neg here]
      have other : ¬o.key = key := fun same => here same.symm
      simp [Keyed.get?, other]

theorem overridden_foldl (fs : List String) (key : Scope × String) :
    (fs.foldl (fun t f => t.override ⟨scope, f, newId⟩) t).overridden key =
      if key.1 = scope ∧ key.2 ∈ fs then some newId else t.overridden key := by
  induction fs generalizing t with
  | nil => simp
  | cons f fs ih =>
    rw [List.foldl_cons, ih, overridden_override]
    obtain ⟨s, x⟩ := key
    by_cases here : s = scope <;> by_cases first : x = f <;> by_cases later : x ∈ fs <;>
      simp [Override.key, here, first, later]

theorem incidents_overrideAll :
    (t.overrideAll scope failureIds newId).incidents = t.incidents := by
  unfold Tables.overrideAll
  generalize failureIds.dedup.insertionSort (· ≤ ·) = fs
  induction fs generalizing t with
  | nil => rfl
  | cons f fs ih => rw [List.foldl_cons, ih, Valid.incidents_override]

theorem overridden_overrideAll (key : Scope × String) :
    (t.overrideAll scope failureIds newId).overridden key =
      if key.1 = scope ∧ key.2 ∈ failureIds then some newId else t.overridden key := by
  rw [Tables.overrideAll, overridden_foldl]
  simp [List.mem_insertionSort]

end Overrides

/-! ## Revisions -/

section Revisions

variable {c : Builtins} {t t' : Tables} {l : Transaction} {id : String} {revision : Nat}

theorem find_amended {g : Incident → Incident} (keeps : ∀ i, (g i).incidentId = i.incidentId)
    {row : Incident} (found : find id t.incidents = some row) :
    find id (t.amend id g).incidents = some (g row) := by
  rw [Tables.amend, find_amend keeps, if_pos rfl, found]
  rfl

theorem find_amend_ne {g : Incident → Incident} (keeps : ∀ i, (g i).incidentId = i.incidentId)
    {x : String} (ne : x ≠ id) : find x (t.amend id g).incidents = find x t.incidents := by
  rw [Tables.amend, find_amend keeps, if_neg ne]

theorem Grows.of_incidents {t'' : Tables} (h : Grows t t') (same : t''.incidents = t'.incidents) :
    Grows t t'' := by
  intro id row found
  rw [same]
  exact h id row found

theorem SplitDone.incidents {source : Incident} {failureIds : List String}
    {observed : Fields String} {newId : String}
    (h : SplitDone t t' source failureIds observed newId) :
    t'.incidents = Keyed.amend Incident.incidentId source.incidentId
      (fun row => { row with revision := source.revision + 1 })
        (t.incidents ++ [source.splitOff newId]) := by
  rw [h.done, Tables.amend, incidents_overrideAll]

/-- A correction that commits finds the revisions that it was made for, and raises them. -/
theorem attempt_ok (done : t.attempt c l = .ok t') :
    Grows t t' ∧ ∀ key ∈ l.corrects, ∃ row row', find key.1 t.incidents = some row ∧
      row.revision = key.2 ∧ find key.1 t'.incidents = some row' ∧ row'.revision = key.2 + 1 := by
  cases l with
  | snapshot q =>
    obtain rfl := Except.ok.inj done
    exact ⟨.discoverAll _, List.forall_mem_nil _⟩
  | change id revision changes note =>
    obtain ⟨row, locked, done⟩ := Failing.bind_ok.mp done
    obtain ⟨found, rfl, -⟩ := locked_ok locked
    split at done
    · cases done
    · obtain rfl := Except.ok.inj done
      refine ⟨.amend (fun _ => rfl) (fun _ => rfl) fun row' found' => ?_, fun key hkey => ?_⟩
      · obtain rfl := Option.some.inj (found.symm.trans found')
        exact Nat.le_succ _
      · obtain rfl := List.mem_singleton.mp hkey
        refine ⟨row, _, found, rfl, find_amended ?_ found, rfl⟩
        exact fun _ => rfl
  | merge sourceId revision targetId targetRevision =>
    simp only [Tables.attempt, Tables.merge] at done
    split at done
    · cases done
    · rename_i other
      obtain ⟨source, lockedSource, done⟩ := Failing.bind_ok.mp done
      obtain ⟨target, lockedTarget, done⟩ := Failing.bind_ok.mp done
      obtain ⟨foundSource, rfl, -⟩ := locked_ok lockedSource
      obtain ⟨foundTarget, rfl, -⟩ := locked_ok lockedTarget
      split at done
      · cases done
      · obtain rfl := Except.ok.inj done
        -- The target is as it was when the source has been changed.
        have later : find targetId (t.amend sourceId fun row => { row with
            mergedInto := some targetId, revision := source.revision + 1 }).incidents =
              some target := by
          refine (find_amend_ne ?_ (Ne.symm other)).trans foundTarget
          exact fun _ => rfl
        have first : Grows t (t.amend sourceId fun row => { row with
            mergedInto := some targetId, revision := source.revision + 1 }) := by
          refine .amend (fun _ => rfl) (fun _ => rfl) fun row found => ?_
          obtain rfl := Option.some.inj (foundSource.symm.trans found)
          exact Nat.le_succ _
        refine ⟨first.trans (.amend (fun _ => rfl) (fun _ => rfl) fun row found => ?_), ?_⟩
        · obtain rfl := Option.some.inj (later.symm.trans found)
          exact Nat.le_succ _
        · rintro key (_ | ⟨_, _ | ⟨_, ⟨⟩⟩⟩)
          · refine ⟨source, _, foundSource, rfl,
              (find_amend_ne ?_ other).trans (find_amended ?_ foundSource), rfl⟩
            · exact fun _ => rfl
            · exact fun _ => rfl
          · refine ⟨target, _, foundTarget, rfl, find_amended ?_ later, rfl⟩
            exact fun _ => rfl
  | split id revision failureIds observed newId =>
    obtain ⟨source, found, rfl, shape⟩ := split_ok done
    obtain rfl := Keyed.key_of_get? found
    -- The new row is behind the others.
    have later : find source.incidentId (t.incidents ++ [source.splitOff newId]) =
        some source := by
      rw [find_append, found, Option.some_or]
    refine ⟨?_, fun key hkey => ?_⟩
    · have first : Grows t { t with incidents := t.incidents ++ [source.splitOff newId] } :=
        .append t.overrides _
      have second : Grows { t with incidents := t.incidents ++ [source.splitOff newId] }
          (Tables.amend { t with incidents := t.incidents ++ [source.splitOff newId] }
            source.incidentId fun row => { row with revision := source.revision + 1 }) := by
        refine .amend (fun _ => rfl) (fun _ => rfl) fun row here => ?_
        obtain rfl := Option.some.inj (later.symm.trans here)
        exact Nat.le_succ _
      exact (first.trans second).of_incidents shape.incidents
    · obtain rfl := List.mem_singleton.mp hkey
      refine ⟨source, { source with revision := source.revision + 1 }, found, rfl, ?_, rfl⟩
      rw [shape.incidents]
      refine (find_amend ?_).trans ?_
      · exact fun _ => rfl
      · rw [if_pos rfl, later]
        rfl

theorem Grows.after : Grows t (t.after c l) := by
  rw [after_eq]
  cases done : t.attempt c l with
  | ok t' => exact (attempt_ok done).1
  | error _ => exact .refl t

theorem Grows.afterAll (ls : List Transaction) : Grows t (ls.foldl (·.after c ·) t) := by
  induction ls generalizing t with
  | nil => exact .refl t
  | cons l ls ih => exact Grows.after.trans ih

/-- A revision that is corrected once is not corrected again. -/
theorem stale_revision {l' : Transaction} (later : List Transaction) {key : String × Nat}
    (first : key ∈ l.corrects) (second : key ∈ l'.corrects) (done : t.attempt c l = .ok t') :
    ∃ f, (later.foldl (·.after c ·) t').attempt c l' = .error f := by
  obtain ⟨-, corrected⟩ := attempt_ok done
  obtain ⟨-, row, -, -, found, raised⟩ := corrected key first
  obtain ⟨row', found', -, le⟩ := Grows.afterAll (c := c) later key.1 row found
  cases again : (later.foldl (·.after c ·) t').attempt c l' with
  | error f => exact ⟨f, rfl⟩
  | ok t'' =>
    obtain ⟨row'', -, here, same, -⟩ := (attempt_ok again).2 key second
    obtain rfl := Option.some.inj (found'.symm.trans here)
    omega

end Revisions

/-! ## What a split moves -/

/-- `{fid: natural for (_env, _sid, fid), natural in natural_ids.items()}`. -/
def Builtins.observed (c : Builtins) (evidence : List Evidence) : Fields String :=
  Fields.update [] (evidence.map fun e => (e.failureId, (c.naturalIdOf evidence e.key).getD ""))

/-- The scan of a split request: the registry has no blank environments and ids. -/
structure AskedFor (q : ScanRequest) (source : Incident) : Prop where
  environment : q.environment = some source.environment
  serviceId : q.serviceId = some source.serviceId
  environment_ne : source.environment ≠ ""
  serviceId_ne : source.serviceId ≠ ""

section Moves

variable {c : Builtins} {t t' : Tables} {q : ScanRequest} {source : Incident} {e : Evidence}
  {failureIds : List String} {newId : String}

theorem AskedFor.allows_eq (h : AskedFor q source) (scope : Scope) :
    (allows q.environment scope.1 && allows q.serviceId scope.2) =
      decide (scope = source.scope) := by
  obtain ⟨environment, serviceId⟩ := scope
  simp [h.environment, h.serviceId, allows, h.environment_ne, h.serviceId_ne,
    Incident.scope]

theorem AskedFor.scope (h : AskedFor q source) (he : e ∈ q.scan.evidence) :
    e.scope = source.scope := by
  have allowed := h.allows_eq e.scope
  obtain ⟨env, sid⟩ := allowed_of_mem q he
  rw [show e.scope.1 = e.environment from rfl, show e.scope.2 = e.serviceId from rfl, env, sid]
    at allowed
  exact of_decide_eq_true allowed.symm

theorem AskedFor.incidents (h : AskedFor q source) (t : Tables) :
    (t.within q.environment q.serviceId).incidents =
      t.incidents.filter fun i => i.scope = source.scope :=
  List.filter_congr fun i _ => h.allows_eq i.scope

/-- What is found by a key that is kept. -/
theorem get?_filter_of {α κ : Type} [DecidableEq κ] {key : α → κ} {p : α → Bool} {k : κ}
    {l : List α} (kept : ∀ a, key a = k → p a = true) :
    Keyed.get? key k (l.filter p) = Keyed.get? key k l := by
  rw [Keyed.get?, Keyed.get?, List.find?_filter]
  congr 1
  funext a
  by_cases here : key a = k
  · simp [here, kept a here]
  · simp [here]

theorem AskedFor.root_eq (h : AskedFor q source) (he : e ∈ q.scan.evidence) (t : Tables) :
    c.root q t e = (resolve (t.incidents.filter fun i => i.scope = source.scope) []
      ((t.overridden e.key).getD (c.naturalId e))).toOption.getD "" := by
  have kept : ∀ o : Override, o.key = e.key → (allows q.environment o.scope.1 &&
      allows q.serviceId o.scope.2) = true := by
    intro o same
    rw [h.allows_eq, decide_eq_true_eq]
    exact (congrArg Prod.fst same).trans (h.scope he)
  have overrides : Keyed.get? Override.key e.key (t.within q.environment q.serviceId).overrides =
      Keyed.get? Override.key e.key t.overrides := get?_filter_of kept
  rw [Builtins.root, Builtins.assigned, h.incidents, overrides, naturalIdOf_eq he]
  rfl

/-- The failure ids of one service are its own. -/
theorem AskedFor.ids_nodup (h : AskedFor q source) :
    (q.scan.evidence.map Evidence.failureId).Nodup := by
  have keys := keys_nodup q
  have same : q.scan.evidence.map Evidence.key =
      (q.scan.evidence.map Evidence.failureId).map fun f => (source.scope, f) := by
    rw [List.map_map]
    refine List.map_congr_left fun e he => ?_
    rw [Function.comp, ← h.scope he]
    rfl
  rw [same] at keys
  exact keys.of_map _

theorem AskedFor.observed_eq (h : AskedFor q source) :
    c.observed q.scan.evidence =
      q.scan.evidence.map fun e => (e.failureId, c.naturalId e) := by
  have entries : (q.scan.evidence.map fun e =>
      (e.failureId, (c.naturalIdOf q.scan.evidence e.key).getD "")) =
        q.scan.evidence.map fun e => (e.failureId, c.naturalId e) :=
    List.map_congr_left fun e he => by rw [naturalIdOf_eq he, Option.getD_some]
  rw [Builtins.observed, entries, Fields.update_of_nodup, List.nil_append]
  rw [List.nil_append, List.map_map]
  exact h.ids_nodup

/-- The members that a split finds are those of the group that would be rebuilt. -/
theorem AskedFor.members_eq (h : AskedFor q source) (sound : Sound t.incidents)
    (assigned : c.Assigned q t) :
    t.members source (c.observed q.scan.evidence) =
      .ok ((q.scan.evidence.filter (c.root q t · = source.incidentId)).map Evidence.failureId) := by
  have walks : ∀ e ∈ q.scan.evidence, (resolve (t.incidents.filter fun i => i.scope = source.scope)
      [] ((t.assignment source.scope e.failureId).getD (c.naturalId e))).map
        (fun id => (e.failureId, id)) = .ok (e.failureId, c.root q t e) := by
    intro e he
    obtain ⟨root, done, -⟩ := resolve_ok (sound.filter fun scope => scope = source.scope).grounded
      ((t.overridden e.key).getD (c.naturalId e))
    have key : t.assignment source.scope e.failureId = t.overridden e.key := by
      rw [← h.scope he]
      rfl
    rw [h.root_eq he, key, done]
    rfl
  have resolved := Failing.mapM_eq_map walks
  rw [Tables.members, h.observed_eq, List.mapM_map, Function.comp_def, resolved]
  refine congrArg Except.ok ?_
  dsimp only
  rw [List.filter_map, List.map_map]
  rfl

theorem find_filter {states : List Incident} (ids : (states.map Incident.incidentId).Nodup)
    (p : Incident → Bool) (x : String) :
    find x (states.filter p) = (find x states).filter p := by
  cases found : find x states with
  | none =>
    rw [find, Keyed.get?_eq_none] at found
    rw [Option.filter_none, find, Keyed.get?_eq_none]
    exact fun listed => found ((List.filter_sublist.map _).subset listed)
  | some i =>
    obtain rfl := Keyed.key_of_get? found
    have kept := ids.sublist ((List.filter_sublist (p := p)).map Incident.incidentId)
    by_cases hi : p i = true
    · rw [Option.filter_some, if_pos hi]
      exact Keyed.get?_of_mem kept (List.mem_filter.mpr ⟨Keyed.mem_of_get? found, hi⟩)
    · rw [Option.filter_some, if_neg hi, find, Keyed.get?_eq_none]
      intro listed
      obtain ⟨j, hj, same⟩ := List.mem_map.mp listed
      obtain ⟨hj, here⟩ := List.mem_filter.mp hj
      have again : find j.incidentId states = some j := Keyed.get?_of_mem ids hj
      rw [same] at again
      obtain rfl := Option.some.inj (found.symm.trans again)
      exact hi here

/-- A split changes no merge. -/
theorem SplitDone.target_eq {observed : Fields String}
    (h : SplitDone t t' source failureIds observed newId)
    (found : find source.incidentId t.incidents = some source)
    (ids : (t.incidents.map Incident.incidentId).Nodup)
    (ids' : (t'.incidents.map Incident.incidentId).Nodup) (scope : Scope) :
    target (t'.incidents.filter fun i => i.scope = scope) =
      target (t.incidents.filter fun i => i.scope = scope) := by
  have absent : find newId t.incidents = none := Keyed.get?_eq_none.mpr h.new
  have other : newId ≠ source.incidentId := by
    rintro rfl
    rw [absent] at found
    cases found
  have rows (x : String) : find x t'.incidents =
      if x = source.incidentId then some { source with revision := source.revision + 1 }
      else (find x t.incidents).or (if newId = x then some (source.splitOff newId) else none) := by
    rw [h.incidents]
    refine (find_amend ?_).trans ?_
    · exact fun _ => rfl
    · rw [find_append, found, find_append]
      rfl
  funext x
  rw [target, target, find_filter ids, find_filter ids', rows]
  by_cases here : x = source.incidentId
  · have kept : Incident.scope { source with revision := source.revision + 1 } = source.scope := rfl
    rw [if_pos here, here, found, Option.filter_some, Option.filter_some, kept]
    split <;> rfl
  · rw [if_neg here]
    by_cases made : newId = x
    · rw [if_pos made, ← made, absent, Option.none_or, Option.filter_some]
      split <;> rfl
    · rw [if_neg made, Option.or_none]

theorem resolve_congr {states states' : List Incident} (grounded : Grounded (target states))
    (same : target states' = target states) (x : String) :
    resolve states' [] x = resolve states [] x := by
  obtain ⟨root, done, reach, ends⟩ := resolve_ok grounded x
  obtain ⟨root', done', reach', ends'⟩ := resolve_ok (same ▸ grounded) x
  rw [same] at reach' ends'
  rw [done, done', reach.root_unique ends reach' ends']

/-- Where a failure belongs after the split. -/
theorem SplitDone.root_eq {observed : Fields String}
    (h : SplitDone t t' source failureIds observed newId) (asked : AskedFor q source)
    (found : find source.incidentId t.incidents = some source) (sound : Sound t.incidents)
    (sound' : Sound t'.incidents) (he : e ∈ q.scan.evidence) :
    c.root q t' e = if e.failureId ∈ failureIds then newId else c.root q t e := by
  have grounded := (sound.filter fun scope => scope = source.scope).grounded
  have merges := h.target_eq found sound.ids sound'.ids source.scope
  have overridden : t'.overridden e.key =
      if e.failureId ∈ failureIds then some newId else t.overridden e.key := by
    rw [h.done]
    refine (overridden_overrideAll e.key).trans ?_
    have here : e.key.1 = source.scope := asked.scope he
    simp only [here, true_and]
    rfl
  rw [asked.root_eq he, asked.root_eq he, overridden, resolve_congr grounded merges]
  split
  · have root : target (t.incidents.filter fun i => i.scope = source.scope) newId = none := by
      rw [target, find_filter sound.ids, show find newId t.incidents = none from
        Keyed.get?_eq_none.mpr h.new]
      rfl
    rw [Option.getD_some, resolve]
    split
    · rfl
    · rename_i points
      rw [root] at points
      cases points
  · rfl

end Moves

/-- Rebuilding from the same scan moves the selected failures and no other. -/
def Moves (c : Builtins) (q : ScanRequest) (t t' : Tables) (id newId : String)
    (failureIds : List String) : Prop :=
  ∃ b b', c.build t q.scan q.environment q.serviceId = (t, .ok b) ∧
    c.build t' q.scan q.environment q.serviceId = (t', .ok b') ∧
    b.group newId = [] ∧
    (b'.group newId).Perm ((b.group id).filter (·.failureId ∈ failureIds)) ∧
    (∀ f ∈ failureIds, f ∈ (b'.group newId).map Evidence.failureId) ∧
    (b'.group id).Perm ((b.group id).filter (·.failureId ∉ failureIds)) ∧
    b'.group id ≠ [] ∧
    ∀ x, x ≠ id → x ≠ newId → b'.group x = b.group x

section Splits

variable {c : Builtins} {t t' : Tables} {q : ScanRequest} {source : Incident} {e : Evidence}
  {failureIds : List String} {newId : String}

theorem newestFirst_perm (items : List Evidence) : (c.newestFirst items).Perm items :=
  List.perm_insertionSort _ _

/-- Nothing is discovered twice. -/
theorem discoverAll_of_mem {scanned : List Evidence}
    (known : ∀ e ∈ scanned, c.naturalId e ∈ t.ids) :
    t.discoverAll (c.discoveries scanned) = t := by
  have listed : ∀ entry ∈ (c.discoveries scanned).insertionSort fun a b => a.1 ≤ b.1,
      entry.1 ∈ t.ids := by
    intro entry hentry
    obtain ⟨e, he, rfl⟩ := Valid.mem_discoveries ((List.mem_insertionSort _).mp hentry)
    exact known e he
  unfold Tables.discoverAll
  generalize (c.discoveries scanned).insertionSort (fun a b => a.1 ≤ b.1) = entries at listed
  induction entries with
  | nil => rfl
  | cons entry entries ih =>
    rw [List.forall_mem_cons] at listed
    have same : t.discover entry.1 entry.2 = t := if_pos listed.1
    rw [List.foldl_cons, same]
    exact ih listed.2

theorem SplitDone.moves (h : SplitDone t t' source failureIds (c.observed q.scan.evidence) newId)
    (asked : AskedFor q source) (found : find source.incidentId t.incidents = some source)
    (sound : Sound t.incidents) (sound' : Sound t'.incidents) (assigned : c.Assigned q t)
    (assigned' : c.Assigned q t') (known : ∀ e ∈ q.scan.evidence, c.naturalId e ∈ t.ids)
    (known' : ∀ e ∈ q.scan.evidence, c.naturalId e ∈ t'.ids) :
    Moves c q t t' source.incidentId newId failureIds := by
  obtain ⟨b, built, -, group⟩ := build_groups (discoverAll_of_mem known) sound assigned
  obtain ⟨b', built', -, group'⟩ := build_groups (discoverAll_of_mem known') sound' assigned'
  have moved (e : Evidence) (he : e ∈ q.scan.evidence) :=
    h.root_eq (c := c) asked found sound sound' he
  have old (e : Evidence) (he : e ∈ q.scan.evidence) : c.root q t e ≠ newId := by
    obtain ⟨i, hi, -, -, named, -⟩ := root_ok sound assigned e he
    rintro rfl
    exact h.new (named ▸ List.mem_map_of_mem (List.mem_filter.mp hi).1)
  obtain ⟨members, walked, inside, proper⟩ := h.members
  obtain rfl := Except.ok.inj ((asked.members_eq sound assigned).symm.trans walked)
  -- A selected failure was a member of the source.
  have selected (e : Evidence) (he : e ∈ q.scan.evidence) (hf : e.failureId ∈ failureIds) :
      c.root q t e = source.incidentId := by
    obtain ⟨e', he', same⟩ := List.mem_map.mp (inside hf)
    obtain ⟨he', root⟩ := List.mem_filter.mp he'
    obtain rfl := List.inj_on_of_nodup_map asked.ids_nodup he' he same
    exact of_decide_eq_true root
  have other : source.incidentId ≠ newId := by
    rintro same
    exact h.new (same ▸ List.mem_map_of_mem (Keyed.mem_of_get? found))
  have taken : (b'.group newId).Perm
      ((b.group source.incidentId).filter (·.failureId ∈ failureIds)) := by
    rw [group, group']
    refine (newestFirst_perm _).trans (List.Perm.trans ?_ ((newestFirst_perm _).symm.filter _))
    rw [List.filter_filter]
    refine List.Perm.of_eq (List.filter_congr fun e he => ?_)
    rw [moved e he]
    by_cases hf : e.failureId ∈ failureIds
    · simp [hf, selected e he hf]
    · simp [hf, old e he]
  have left : (b'.group source.incidentId).Perm
      ((b.group source.incidentId).filter (·.failureId ∉ failureIds)) := by
    rw [group, group']
    refine (newestFirst_perm _).trans (List.Perm.trans ?_ ((newestFirst_perm _).symm.filter _))
    rw [List.filter_filter]
    refine List.Perm.of_eq (List.filter_congr fun e he => ?_)
    rw [moved e he]
    by_cases hf : e.failureId ∈ failureIds
    · simp [hf, other.symm]
    · simp [hf]
  have member {e : Evidence} (he : e ∈ q.scan.evidence)
      (root : c.root q t e = source.incidentId) : e ∈ b.group source.incidentId := by
    rw [group, (newestFirst_perm _).mem_iff]
    exact List.mem_filter.mpr ⟨he, decide_eq_true root⟩
  refine ⟨b, b', built, built', ?_, taken, fun f hf => ?_, left, fun empty => ?_,
    fun x hx hn => ?_⟩
  · rw [group, List.filter_eq_nil_iff.mpr fun e he => by simpa using old e he]
    rfl
  · obtain ⟨e, he, rfl⟩ := List.mem_map.mp (inside hf)
    obtain ⟨he, root⟩ := List.mem_filter.mp he
    refine List.mem_map_of_mem (taken.mem_iff.mpr (List.mem_filter.mpr ⟨?_, decide_eq_true hf⟩))
    exact member he (of_decide_eq_true root)
  · rw [empty] at left
    refine proper fun f hf => ?_
    obtain ⟨e, he, rfl⟩ := List.mem_map.mp hf
    obtain ⟨he, root⟩ := List.mem_filter.mp he
    by_contra kept
    have : e ∈ (b.group source.incidentId).filter (·.failureId ∉ failureIds) :=
      List.mem_filter.mpr ⟨member he (of_decide_eq_true root), decide_eq_true kept⟩
    exact absurd (left.mem_iff.mpr this) List.not_mem_nil
  · rw [group, group']
    refine congrArg c.newestFirst (List.filter_congr fun e he => ?_)
    rw [moved e he]
    by_cases hf : e.failureId ∈ failureIds
    · simp [hf, selected e he hf, hx.symm, hn.symm]
    · simp [hf]

end Splits

/-! ## Runs -/

section Runs

variable {c : Builtins} {t : Tables} {l : Transaction} {ls : List Transaction} {i : Incident}

/-- The registry has no service with a blank environment or id. -/
def Registered (ls : List Transaction) : Prop :=
  ∀ q, .snapshot q ∈ ls → ∀ s ∈ q.services, s.environment ≠ "" ∧ s.serviceId ≠ ""

/-- Every row is of a scope that was scanned. -/
def Scanned (t : Tables) (evidence : List Evidence) : Prop :=
  ∀ i ∈ t.incidents, ∃ e ∈ evidence, i.scope = e.scope

theorem Scanned.amend {evidence : List Evidence} {id : String} {g : Incident → Incident}
    (h : Scanned t evidence) (scope : ∀ i, (g i).scope = i.scope) :
    Scanned (t.amend id g) evidence := by
  intro i' hi'
  rcases Keyed.mem_amend hi' with old | ⟨i, found, rfl⟩
  · exact h i' old
  · rw [scope]
    exact h i (Keyed.mem_of_get? found)

theorem Scanned.discoverAll {evidence scanned : List Evidence} (h : Scanned t evidence)
    (sub : ∀ e ∈ scanned, e ∈ evidence) :
    Scanned (t.discoverAll (c.discoveries scanned)) evidence := by
  refine Valid.keeps_discoverAll (P := (Scanned · evidence)) (fun {t e} he h => ?_) sub h
  unfold Tables.discover
  split
  · exact h
  · intro i hi
    rcases List.mem_append.mp hi with old | here
    · exact h i old
    · rw [List.mem_singleton.mp here]
      exact ⟨e, he, rfl⟩

theorem Scanned.after {evidence : List Evidence} (h : Scanned t evidence)
    (sub : ∀ e ∈ l.evidence, e ∈ evidence) : Scanned (t.after c l) evidence := by
  rw [after_eq]
  cases done : t.attempt c l with
  | error _ => exact h
  | ok t' =>
    cases l with
    | snapshot q =>
      obtain rfl := Except.ok.inj done
      exact h.discoverAll sub
    | change id revision changes note =>
      obtain ⟨row, -, done⟩ := Failing.bind_ok.mp done
      split at done
      · cases done
      · obtain rfl := Except.ok.inj done
        exact h.amend fun _ => rfl
    | merge sourceId revision targetId targetRevision =>
      simp only [Tables.attempt, Tables.merge] at done
      split at done
      · cases done
      · obtain ⟨_, _, done⟩ := Failing.bind_ok.mp done
        obtain ⟨_, _, done⟩ := Failing.bind_ok.mp done
        split at done
        · cases done
        · obtain rfl := Except.ok.inj done
          refine Scanned.amend (Scanned.amend h ?_) ?_
          · exact fun _ => rfl
          · exact fun _ => rfl
    | split id revision failureIds observed newId =>
      obtain ⟨source, found, -, shape⟩ := split_ok done
      intro i' hi'
      rw [committed, shape.incidents] at hi'
      have rows : ∀ i ∈ t.incidents ++ [source.splitOff newId], ∃ e ∈ evidence,
          i.scope = e.scope := by
        intro i hi
        rcases List.mem_append.mp hi with old | here
        · exact h i old
        · rw [List.mem_singleton.mp here]
          exact h source (Keyed.mem_of_get? found)
      rcases Keyed.mem_amend hi' with old | ⟨i, found', rfl⟩
      · exact rows i' old
      · exact rows i (Keyed.mem_of_get? found')

theorem Scanned.run : Scanned (Tables.run c ls) (ls.flatMap Transaction.evidence) := by
  have stays (t : Tables) (done : List Transaction)
      (h : Scanned t (ls.flatMap Transaction.evidence)) (sub : done ⊆ ls) :
      Scanned (done.foldl (·.after c ·) t) (ls.flatMap Transaction.evidence) := by
    induction done generalizing t with
    | nil => exact h
    | cons l done ih =>
      obtain ⟨hl, rest⟩ := List.cons_subset.mp sub
      exact ih _ (h.after fun e he => List.mem_flatMap.mpr ⟨l, hl, he⟩) rest
  exact stays {} ls (List.forall_mem_nil _) (List.Subset.refl _)

/-- The scope of a failure is that of a service. -/
theorem service_of_mem {q : ScanRequest} {e : Evidence} (he : e ∈ q.scan.evidence) :
    ∃ s ∈ q.services, e.environment = s.environment ∧ e.serviceId = s.serviceId := by
  obtain ⟨result, hresult, he⟩ := List.mem_flatMap.mp he
  obtain ⟨service, hservice, rfl⟩ := List.mem_map.mp hresult
  exact ⟨service, (List.mem_filter.mp hservice).1, (of_mem_read he).2, (of_mem_read he).1⟩

theorem Registered.scope_ne (registered : Registered ls) (hi : i ∈ (Tables.run c ls).incidents) :
    i.environment ≠ "" ∧ i.serviceId ≠ "" := by
  obtain ⟨e, he, scope⟩ := Scanned.run i hi
  obtain ⟨l, hl, he⟩ := List.mem_flatMap.mp he
  cases l with
  | snapshot q =>
    obtain ⟨s, hs, env, sid⟩ := service_of_mem he
    obtain ⟨sameEnv, sameSid⟩ := Prod.mk.inj scope
    rw [sameEnv, sameSid, env, sid]
    exact registered q hl s hs
  | change | merge | split => cases he

theorem run_append (ls ls' : List Transaction) :
    Tables.run c (ls ++ ls') = ls'.foldl (·.after c ·) (Tables.run c ls) := List.foldl_append

/-- What was scanned has its natural incident from then on. -/
theorem naturalId_mem_run {q : ScanRequest} (scanned : .snapshot q ∈ ls) {e : Evidence}
    (he : e ∈ q.scan.evidence) : c.naturalId e ∈ (Tables.run c ls).ids := by
  obtain ⟨before, later, rfl⟩ := List.append_of_mem scanned
  have there := naturalId_mem_ids (t := Tables.run c before) (c := c) he
  rw [Tables.ids, ← find_isSome, Option.isSome_iff_exists] at there
  obtain ⟨row, found⟩ := there
  obtain ⟨row', found', -⟩ := Grows.afterAll (c := c) later _ row found
  rw [Tables.ids, ← find_isSome, Option.isSome_iff_exists]
  exact ⟨row', by rw [run_append, List.foldl_cons]; exact found'⟩

end Runs

/-- In every state, a split moves what was selected, a correction that raises changes nothing, and
a revision is corrected once. -/
theorem split_moves_selected (c : Builtins) (ls : List Transaction) (apart : HashesApart c ls)
    (registered : Registered ls) :
    (∀ (q : ScanRequest) (source : Incident) (revision : Nat) (failureIds : List String)
        (newId : String) (t' : Tables), .snapshot q ∈ ls → newId.length = 32 →
      find source.incidentId (Tables.run c ls).incidents = some source →
      q.environment = some source.environment → q.serviceId = some source.serviceId →
      (Tables.run c ls).split source.incidentId revision failureIds
        (c.observed q.scan.evidence) newId = .ok t' →
      Moves c q (Tables.run c ls) t' source.incidentId newId failureIds) ∧
    (∀ l f, (Tables.run c ls).attempt c l = .error f →
      Tables.run c (ls ++ [l]) = Tables.run c ls) ∧
    ∀ l l' later key t', key ∈ l.corrects → key ∈ l'.corrects →
      (Tables.run c ls).attempt c l = .ok t' →
      ∃ f, (Tables.run c (ls ++ l :: later)).attempt c l' = .error f := by
  refine ⟨?_, fun l f raised => ?_, fun l l' later key t' first second done => ?_⟩
  · intro q source revision failureIds newId t' scanned uuid found environment serviceId done
    have known (e : Evidence) (he : e ∈ q.scan.evidence) : e ∈ ls.flatMap Transaction.evidence :=
      List.mem_flatMap.mpr ⟨.snapshot q, scanned, he⟩
    have uuids : ∀ id ∈ newId :: ls.flatMap Transaction.newIds, id.length = 32 := by
      rw [List.forall_mem_cons]
      exact ⟨uuid, apart.uuids⟩
    have valid : Valid c (ls.flatMap Transaction.evidence)
        (newId :: ls.flatMap Transaction.newIds) (Tables.run c ls) :=
      Valid.run apart.digests uuids
        (fun l hl e he => List.mem_flatMap.mpr ⟨l, hl, he⟩)
        (fun l hl id hid => List.mem_cons_of_mem _ (List.mem_flatMap.mpr ⟨l, hl, hid⟩))
    have valid' := valid.split List.mem_cons_self done
    obtain ⟨source', found', rfl, shape⟩ := split_ok done
    obtain rfl := Option.some.inj (found.symm.trans found')
    have asked : AskedFor q source := by
      obtain ⟨env, sid⟩ := registered.scope_ne (Keyed.mem_of_get? found)
      exact ⟨environment, serviceId, env, sid⟩
    have here (e : Evidence) (he : e ∈ q.scan.evidence) :
        c.naturalId e ∈ (Tables.run c ls).ids := naturalId_mem_run scanned he
    have here' (e : Evidence) (he : e ∈ q.scan.evidence) : c.naturalId e ∈ t'.ids := by
      have grown := (attempt_ok (c := c) (l := .split source.incidentId source.revision failureIds
        (c.observed q.scan.evidence) newId) done).1
      have there := here e he
      rw [Tables.ids, ← find_isSome, Option.isSome_iff_exists] at there ⊢
      obtain ⟨row, found⟩ := there
      obtain ⟨row', found', -⟩ := grown _ row found
      exact ⟨row', found'⟩
    refine shape.moves asked found valid.sound valid'.sound (fun e he => ?_) (fun e he => ?_) here
      here'
    · exact valid.assigned apart.apart apart.digests uuids he (known e he) (here e he)
    · exact valid'.assigned apart.apart apart.digests uuids he (known e he) (here' e he)
  · rw [run_append, List.foldl_cons, List.foldl_nil, after_eq, raised]
    rfl
  · obtain ⟨f, stale⟩ := stale_revision later first second done
    refine ⟨f, ?_⟩
    rw [run_append, List.foldl_cons, after_eq, done]
    exact stale

/-- The scan of the split of one of the two failures. -/
def boomScoped : ScanRequest :=
  { boomRequest with environment := some "prod", serviceId := some "svc" }

def boomIncident : Incident where
  incidentId := boomDigest
  serviceId := "svc"
  environment := "prod"
  dimensions :=
    { environment := "prod", serviceId := "svc", queueName := "q", stage := "unknown",
      errorType := "unknown", signature := "boom" }

theorem boomScoped_evidence :
    boomScoped.scan.evidence = [boomEvidence "f1", boomEvidence "f2"] := by
  decide +kernel

theorem boomScoped_apart : HashesApart boomBuiltins [.snapshot boomScoped] := by
  have scanned : ∀ e ∈ [Transaction.snapshot boomScoped].flatMap Transaction.evidence,
      e ∈ boomRequest.scan.evidence := by
    rw [boomRequest_evidence, ← boomScoped_evidence]
    simp [Transaction.evidence]
  have digest : boomDigest.length = 64 := by decide
  refine ⟨fun e he e' he' _ => ?_, fun _ _ => digest, by decide⟩
  rw [boom_dimensions e (scanned e he), boom_dimensions e' (scanned e' he')]

theorem boomScoped_registered : Registered [.snapshot boomScoped] := by
  intro q hq s hs
  obtain rfl : q = boomScoped := by simpa using hq
  obtain rfl := List.mem_singleton.mp hs
  decide

/-- One of two failures is split off. -/
theorem boom_split_moves : ∃ t',
    (Tables.run boomBuiltins [.snapshot boomScoped]).split boomDigest 0 ["f1"]
      (boomBuiltins.observed boomScoped.scan.evidence) "6f1c2d3e4b5a4c7d8e9f0a1b2c3d4e5f" =
        .ok t' ∧
      Moves boomBuiltins boomScoped (Tables.run boomBuiltins [.snapshot boomScoped]) t' boomDigest
        "6f1c2d3e4b5a4c7d8e9f0a1b2c3d4e5f" ["f1"] := by
  obtain ⟨t', done⟩ : ∃ t', (Tables.run boomBuiltins [.snapshot boomScoped]).split boomDigest 0
      ["f1"] (boomBuiltins.observed boomScoped.scan.evidence) "6f1c2d3e4b5a4c7d8e9f0a1b2c3d4e5f" =
        .ok t' := by
    have commits : ((Tables.run boomBuiltins [.snapshot boomScoped]).split boomDigest 0 ["f1"]
        (boomBuiltins.observed boomScoped.scan.evidence)
          "6f1c2d3e4b5a4c7d8e9f0a1b2c3d4e5f").isOk = true := by
      decide +kernel
    revert commits
    generalize (Tables.run boomBuiltins [.snapshot boomScoped]).split boomDigest 0 ["f1"]
      (boomBuiltins.observed boomScoped.scan.evidence) "6f1c2d3e4b5a4c7d8e9f0a1b2c3d4e5f" = result
    intro commits
    cases result with
    | ok t' => exact ⟨t', rfl⟩
    | error _ => cases commits
  have found : find boomDigest (Tables.run boomBuiltins [.snapshot boomScoped]).incidents =
      some boomIncident := by
    decide +kernel
  exact ⟨t', done, (split_moves_selected boomBuiltins [.snapshot boomScoped] boomScoped_apart
    boomScoped_registered).1 boomScoped boomIncident 0 ["f1"] _ t' (List.mem_singleton_self _)
      (by decide) found rfl rfl done⟩

end Relayna.Studio.Incidents
