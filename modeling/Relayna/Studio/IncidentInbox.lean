import Mathlib.Algebra.BigOperators.Group.List.Lemmas
import Mathlib.Algebra.Ring.Nat
import Mathlib.Data.Nat.Cast.Basic
import Relayna.Studio.IncidentGroups

/-!
# The incident inbox

The failures that a scan finds have keys of their own, and `build` gives each of them to the
incident that its walk ends at.
-/
namespace Relayna.Studio.Incidents

open Python Contracts Forest

/-! ## What a scan finds -/

section Scans

variable {service : Service} {items : Fields Evidence}

/-- The items that were kept, by their own failure ids. -/
structure Kept (service : Service) (items : Fields Evidence) : Prop where
  keys : (items.map Prod.fst).Nodup
  own : ∀ entry ∈ items, entry.2.failureId = entry.1 ∧ entry.2.serviceId = service.serviceId ∧
    entry.2.environment = service.environment

theorem evidence_ok {v : Value} {e : Evidence} (h : service.evidence v = .ok e) :
    e.serviceId = service.serviceId ∧ e.environment = service.environment := by
  unfold Service.evidence at h
  split at h
  · split at h
    · split at h
      · cases h
      · obtain ⟨_, -, h⟩ := Failing.bind_ok.mp h
        obtain ⟨_, -, h⟩ := Failing.bind_ok.mp h
        obtain ⟨_, -, h⟩ := Failing.bind_ok.mp h
        obtain ⟨_, -, h⟩ := Failing.bind_ok.mp h
        obtain ⟨_, -, h⟩ := Failing.bind_ok.mp h
        obtain ⟨_, -, h⟩ := Failing.bind_ok.mp h
        obtain ⟨_, -, h⟩ := Failing.bind_ok.mp h
        obtain rfl := Except.ok.inj h
        exact ⟨rfl, rfl⟩
    · cases h
  · cases h

theorem Kept.set {e : Evidence} (h : Kept service items)
    (own : e.serviceId = service.serviceId ∧ e.environment = service.environment) :
    Kept service (items.set e.failureId e) where
  keys := Fields.keys_set h.keys
  own := by
    intro entry hentry
    rcases Fields.mem_set hentry with old | rfl
    · exact h.own entry old
    · exact ⟨rfl, own⟩

theorem Kept.keep (h : Kept service items) (page : List Value) :
    Kept service (service.keep items page).1 := by
  induction page generalizing items with
  | nil => exact h
  | cons item page ih =>
    unfold Service.keep
    split
    · rename_i e read
      exact ih (h.set (evidence_ok read))
    · exact h

theorem Kept.turn (h : Kept service items) (cursors : List String) (payload : Fields Value) :
    Kept service (service.turn items cursors payload).1 := by
  unfold Service.turn
  split
  · rename_i page _
    have kept := h.keep page
    split
    · exact h
    · split
      · rename_i read
        rw [read] at kept
        exact kept
      · rename_i read
        rw [read] at kept
        split
        · exact kept
        · exact kept
        · split
          · exact kept
          · split <;> exact kept
        · exact kept
  · exact h

theorem Kept.readPages (h : Kept service items) (pageBudget : Nat) (answer : Nat → Answer)
    (left pages : Nat) (cursors : List String) :
    Kept service (service.readPages pageBudget answer left pages cursors items).1 := by
  induction left generalizing pages cursors items with
  | zero => exact h
  | succ left ih =>
    unfold Service.readPages
    split
    · exact h
    · rename_i payload _
      have kept := h.turn cursors payload
      split
      · rename_i read
        rw [read] at kept
        exact kept
      · rename_i read
        rw [read] at kept
        exact kept
      · rename_i read
        rw [read] at kept
        exact ih kept _ _

end Scans

section ScanKeys

variable (q : ScanRequest)

theorem read_kept (service : Service) (pageBudget : Nat) (answer : Nat → Answer) :
    ∃ items, (service.read pageBudget answer).1 = items.map Prod.snd ∧ Kept service items := by
  have start : Kept service [] := ⟨.nil, List.forall_mem_nil _⟩
  exact ⟨_, rfl, start.readPages pageBudget answer pageBudget 0 []⟩

theorem of_mem_read {service : Service} {pageBudget : Nat} {answer : Nat → Answer} {e : Evidence}
    (he : e ∈ (service.read pageBudget answer).1) :
    e.serviceId = service.serviceId ∧ e.environment = service.environment := by
  obtain ⟨items, read, kept⟩ := read_kept service pageBudget answer
  rw [read] at he
  obtain ⟨entry, hentry, rfl⟩ := List.mem_map.mp he
  exact (kept.own entry hentry).2

/-- A failure of a scan is of a service that the request allows. -/
theorem allowed_of_mem {e : Evidence} (he : e ∈ q.scan.evidence) :
    allows q.environment e.environment = true ∧ allows q.serviceId e.serviceId = true := by
  obtain ⟨result, hresult, he⟩ := List.mem_flatMap.mp he
  obtain ⟨service, hservice, rfl⟩ := List.mem_map.mp hresult
  obtain ⟨sid, env⟩ := of_mem_read he
  rw [sid, env]
  have allowed := (List.mem_filter.mp hservice).2
  simp only [Bool.and_eq_true] at allowed
  exact ⟨allowed.1.2, allowed.2⟩

theorem keys_nodup : (q.scan.evidence.map Evidence.key).Nodup := by
  have all (services : List Service) (distinct : (services.map Service.serviceId).Nodup) :
      (((services.map fun s => s.read q.pageBudget (q.answer s.serviceId)).flatMap Prod.fst).map
        Evidence.key).Nodup := by
    induction services with
    | nil => exact .nil
    | cons s services ih =>
      rw [List.map_cons, List.nodup_cons] at distinct
      rw [List.map_cons, List.flatMap_cons, List.map_append, List.nodup_append]
      obtain ⟨items, read, kept⟩ := read_kept s q.pageBudget (q.answer s.serviceId)
      refine ⟨?_, ih distinct.2, ?_⟩
      · rw [read, List.map_map]
        have same : (items.map (Evidence.key ∘ Prod.snd)) =
            (items.map Prod.fst).map fun f => ((s.environment, s.serviceId), f) := by
          rw [List.map_map]
          refine List.map_congr_left fun entry hentry => ?_
          obtain ⟨fid, sid, env⟩ := kept.own entry hentry
          simp only [Function.comp, Evidence.key, Evidence.scope, fid, sid, env]
        rw [same]
        exact kept.keys.map fun f f' h => (Prod.mk.inj h).2
      · rintro _ first _ later rfl
        obtain ⟨e, he, rfl⟩ := List.mem_map.mp first
        obtain ⟨e', he', same⟩ := List.mem_map.mp later
        obtain ⟨result, hresult, he'⟩ := List.mem_flatMap.mp he'
        obtain ⟨s', hs', rfl⟩ := List.mem_map.mp hresult
        have ids : e'.serviceId = e.serviceId := congrArg (fun key => key.1.2) same
        rw [(of_mem_read he).1, (of_mem_read he').1] at ids
        exact distinct.1 (ids ▸ List.mem_map_of_mem hs')
  exact all _ (q.distinct.sublist (List.filter_sublist.map _))

end ScanKeys

/-! ## Every run keeps the tables valid -/

section Runs

variable {c : Builtins} {evidence : List Evidence} {newIds : List String} {t : Tables}

theorem Valid.after (h : Valid c evidence newIds t)
    (digests : ∀ e ∈ evidence, (c.naturalId e).length = 64)
    (uuids : ∀ id ∈ newIds, id.length = 32) {l : Transaction}
    (scanned : ∀ e ∈ l.evidence, e ∈ evidence) (made : ∀ id ∈ l.newIds, id ∈ newIds) :
    Valid c evidence newIds (t.after c l) := by
  have commits {x : Except Failure Tables} (kept : ∀ t', x = .ok t' → Valid c evidence newIds t') :
      Valid c evidence newIds (committed t x) := by
    cases x with
    | ok t' => exact kept t' rfl
    | error _ => exact h
  cases l with
  | snapshot q => exact h.discoverAll scanned
  | change id revision changes note => exact commits fun t' done => h.change done
  | merge sourceId revision targetId targetRevision =>
    exact commits fun t' done => h.merge digests uuids done
  | split id revision failureIds observed newId =>
    exact commits fun t' done => h.split (made newId (List.mem_singleton_self newId)) done

theorem Valid.run (digests : ∀ e ∈ evidence, (c.naturalId e).length = 64)
    (uuids : ∀ id ∈ newIds, id.length = 32) {ls : List Transaction}
    (scanned : ∀ l ∈ ls, ∀ e ∈ l.evidence, e ∈ evidence)
    (made : ∀ l ∈ ls, ∀ id ∈ l.newIds, id ∈ newIds) :
    Valid c evidence newIds (Tables.run c ls) := by
  have stays (t : Tables) (h : Valid c evidence newIds t) :
      Valid c evidence newIds (ls.foldl (·.after c ·) t) := by
    induction ls generalizing t with
    | nil => exact h
    | cons l ls ih =>
      rw [List.forall_mem_cons] at scanned made
      exact ih scanned.2 made.2 _ (h.after digests uuids scanned.1 made.1)
  exact stays {} .empty

end Runs

/-! ## Every failure has one incident -/

theorem merged_eq_false {i : Incident} : i.merged = false ↔ i.into = none := by
  rw [Incident.merged, Option.isSome_eq_false_iff, Option.isNone_iff_eq_none]
  rfl

section Inbox

variable {c : Builtins} {evidence : List Evidence} {newIds : List String} {t : Tables}
  {q : ScanRequest}

theorem naturalIdOf_eq {e : Evidence} (he : e ∈ q.scan.evidence) :
    c.naturalIdOf q.scan.evidence e.key = some (c.naturalId e) := by
  have unique : (q.scan.evidence.reverse.map Evidence.key).Nodup := by
    rw [List.map_reverse, List.nodup_reverse]
    exact keys_nodup q
  rw [Builtins.naturalIdOf, Keyed.get?_of_mem unique (List.mem_reverse.mpr he), Option.map_some]

/-- A failure of the scan is assigned to a row of its scope. -/
theorem Valid.assigned (h : Valid c evidence newIds t)
    (apart : ∀ e ∈ evidence, ∀ e' ∈ evidence, c.naturalId e = c.naturalId e' →
      c.dimensions e = c.dimensions e')
    (digests : ∀ e ∈ evidence, (c.naturalId e).length = 64)
    (uuids : ∀ id ∈ newIds, id.length = 32) {e : Evidence} (he : e ∈ q.scan.evidence)
    (known : e ∈ evidence) (discovered : c.naturalId e ∈ t.ids) :
    ∃ i ∈ (t.within q.environment q.serviceId).incidents, i.scope = e.scope ∧ i.incidentId =
      c.assigned q.scan.evidence (t.within q.environment q.serviceId).overrides e := by
  have inside {i : Incident} (hi : i ∈ t.incidents) (here : i.scope = e.scope) :
      i ∈ (t.within q.environment q.serviceId).incidents := by
    obtain ⟨env, sid⟩ := allowed_of_mem q he
    obtain ⟨sameEnv, sameSid⟩ := Prod.mk.inj here
    refine List.mem_filter.mpr ⟨hi, ?_⟩
    rw [sameEnv, sameSid, env, sid]
    rfl
  unfold Builtins.assigned
  cases found : Keyed.get? Override.key e.key (t.within q.environment q.serviceId).overrides with
  | some o =>
    have ho := (List.mem_filter.mp (Keyed.mem_of_get? found)).1
    have scope : o.scope = e.scope := congrArg Prod.fst (Keyed.key_of_get? found)
    obtain ⟨i, hi, named, here⟩ := h.overridden o ho
    exact ⟨i, inside hi (here.trans scope), here.trans scope, named⟩
  | none =>
    obtain ⟨i, hi, named⟩ := List.mem_map.mp discovered
    have here : i.scope = e.scope := by
      rcases h.origin i hi with uuid | ⟨e', he', digest, scope⟩
      · have short := uuids _ uuid
        rw [named, digests e known] at short
        cases short
      · have same := apart e known e' he' (named.symm.trans digest)
        exact scope.trans (congrArg Dimensions.scope same).symm
    refine ⟨i, inside hi here, here, ?_⟩
    rw [naturalIdOf_eq he]
    exact named

end Inbox

/-! ## Groups -/

section Groups

variable {root : Evidence → String} {evidence : List Evidence}

/-- The loop over the evidence, when every walk comes to an end. -/
theorem groups_ok {walk : Evidence → Except String String}
    (ends : ∀ e ∈ evidence, walk e = .ok (root e)) :
    ∃ groups, evidence.foldlM (fun (groups : Fields (List Evidence)) e =>
        (walk e).map fun id => groups.set id (((groups.lookup id).getD []) ++ [e])) [] =
          .ok groups ∧
      ∀ id, (groups.lookup id).getD [] = evidence.filter (root · = id) := by
  induction evidence using List.reverseRecOn with
  | nil => exact ⟨[], rfl, fun _ => rfl⟩
  | append_singleton evidence e ih =>
    rw [List.forall_mem_append] at ends
    obtain ⟨groups, loop, each⟩ := ih ends.1
    refine ⟨groups.set (root e) (((groups.lookup (root e)).getD []) ++ [e]), ?_, fun id => ?_⟩
    · rw [List.foldlM_append, loop]
      simp only [List.foldlM_cons, List.foldlM_nil, ends.2 e (List.mem_singleton_self e)]
      rfl
    · rw [List.filter_append]
      by_cases here : id = root e
      · subst here
        rw [Fields.lookup_set_self, each]
        simp
      · rw [Fields.lookup_set_ne here, each]
        simp [Ne.symm here]

theorem lookup_map_snd {β : Type} {d : Fields β} {f : β → β} {id : String} :
    (d.map fun entry => (entry.1, f entry.2)).lookup id = (d.lookup id).map f := by
  induction d with
  | nil => rfl
  | cons entry d ih =>
    rw [List.map_cons, List.lookup_cons, List.lookup_cons]
    cases id == entry.1
    · exact ih
    · rfl

/-- Every failure is counted under one of the ids. -/
theorem sum_groups {ids : List String} (distinct : ids.Nodup)
    (listed : ∀ e ∈ evidence, root e ∈ ids) :
    (ids.map fun id => (evidence.filter (root · = id)).length).sum = evidence.length := by
  induction evidence with
  | nil => simp
  | cons e evidence ih =>
    rw [List.forall_mem_cons] at listed
    have counted : (ids.map fun id => if root e = id then 1 else 0).sum = ids.count (root e) := by
      rw [List.sum_map_ite, List.count, List.countP_eq_length_filter]
      simp [eq_comm, Bool.beq_eq_decide_eq]
    have one := counted.trans (List.count_eq_one_of_mem distinct listed.1)
    have more (id : String) : ((e :: evidence).filter (root · = id)).length =
        (evidence.filter (root · = id)).length + if root e = id then 1 else 0 := by
      by_cases here : root e = id <;> simp [here]
    simp only [more, List.sum_map_add, ih listed.2, one, List.length_cons]

end Groups

/-! ## The partition -/

section Partition

variable {c : Builtins} {evidence : List Evidence} {newIds : List String} {t : Tables}

theorem Sound.within (h : Sound t.incidents) (environment serviceId : Option String) :
    Sound (t.within environment serviceId).incidents :=
  h.filter fun scope => allows environment scope.1 && allows serviceId scope.2

theorem members_ok (h : Sound t.incidents) (source : Incident) (observed : Fields String) :
    ∃ members, t.members source observed = .ok members := by
  have walks (entry : String × String) : ∃ id, (resolve
      (t.incidents.filter fun i => i.scope = source.scope) []
      ((t.assignment source.scope entry.1).getD entry.2)).map (fun id => (entry.1, id)) =
        .ok id := by
    obtain ⟨root, done, -⟩ := resolve_ok (h.filter fun scope => scope = source.scope).grounded
      ((t.assignment source.scope entry.1).getD entry.2)
    exact ⟨_, Failing.map_ok.mpr ⟨root, done, rfl⟩⟩
  obtain ⟨resolved, done⟩ := Failing.mapM_total (l := observed) fun entry _ => walks entry
  exact ⟨_, Failing.map_ok.mpr ⟨resolved, done, rfl⟩⟩

/-- The unmerged rows of the inbox. -/
def Built.unmerged (b : Built) : List Incident := (b.states.map Prod.fst).filter (!·.merged)

theorem map_failureCounts (b : Built) : b.failureCounts.map Prod.snd =
    b.unmerged.map fun i => (b.group i.incidentId).length := by
  simp [Built.failureCounts, Built.unmerged, List.filter_map, Function.comp_def]

/-- Where the walk of a failure ends in the snapshot. -/
def Builtins.root (c : Builtins) (q : ScanRequest) (s : Tables) (e : Evidence) : String :=
  (resolve (s.within q.environment q.serviceId).incidents []
    (c.assigned q.scan.evidence (s.within q.environment q.serviceId).overrides e)).toOption.getD ""

/-- Every failure of the scan is assigned to a row of its scope. -/
def Builtins.Assigned (c : Builtins) (q : ScanRequest) (s : Tables) : Prop :=
  ∀ e ∈ q.scan.evidence, ∃ i ∈ (s.within q.environment q.serviceId).incidents,
    i.scope = e.scope ∧ i.incidentId =
      c.assigned q.scan.evidence (s.within q.environment q.serviceId).overrides e

/-- The walk of a failure ends at a row that is not merged. -/
theorem root_ok {q : ScanRequest} {s : Tables} (sound : Sound s.incidents)
    (assigned : c.Assigned q s) : ∀ e ∈ q.scan.evidence,
    ∃ i ∈ (s.within q.environment q.serviceId).incidents, i.scope = e.scope ∧ i.merged = false ∧
      i.incidentId = c.root q s e ∧ resolve (s.within q.environment q.serviceId).incidents []
        (c.assigned q.scan.evidence (s.within q.environment q.serviceId).overrides e) =
          .ok (c.root q s e) := by
  intro e he
  obtain ⟨i, hi, here, named⟩ := assigned e he
  obtain ⟨last, hlast, done, scope, unmerged⟩ :=
    (sound.within q.environment q.serviceId).resolve hi
  rw [named] at done
  have same : c.root q s e = last.incidentId := by
    rw [Builtins.root, done]
    rfl
  exact ⟨last, hlast, scope.trans here, merged_eq_false.mpr unmerged, same.symm, same ▸ done⟩

/-- The groups of `build` on tables whose merges are sound. -/
theorem build_groups {q : ScanRequest} {s : Tables}
    (discovered : t.discoverAll (c.discoveries q.scan.evidence) = s) (sound : Sound s.incidents)
    (assigned : c.Assigned q s) :
    ∃ b, c.build t q.scan q.environment q.serviceId = (s, .ok b) ∧
      b.states.map Prod.fst = (s.within q.environment q.serviceId).incidents ∧
      ∀ id, b.group id = c.newestFirst (q.scan.evidence.filter (c.root q s · = id)) := by
  have inside := sound.within q.environment q.serviceId
  have ends := root_ok sound assigned
  subst discovered
  obtain ⟨manualTargets, targets⟩ := Failing.mapM_total
    (l := ((t.discoverAll (c.discoveries q.scan.evidence)).within q.environment
      q.serviceId).incidents.filter fun i => i.merged || i.incidentId ≠ c.groupId i.dimensions)
    (f := fun i => resolve ((t.discoverAll (c.discoveries q.scan.evidence)).within q.environment
      q.serviceId).incidents [] i.incidentId) fun i hi => by
      obtain ⟨root, -, done, -⟩ := inside.resolve (List.mem_filter.mp hi).1
      exact ⟨_, done⟩
  obtain ⟨groups, loop, each⟩ := groups_ok fun e he => by
    obtain ⟨-, -, -, -, -, done⟩ := ends e he
    exact done
  let b : Built := ⟨q.scan, ((t.discoverAll (c.discoveries q.scan.evidence)).within q.environment
    q.serviceId).incidents.map fun i =>
      (i, if i.incidentId ∈ manualTargets then .manual else .automatic),
      groups.map fun group => (group.1, c.newestFirst group.2)⟩
  refine ⟨b, ?_, by simp [b, Function.comp_def], fun id => ?_⟩
  · rw [Builtins.build]
    refine Prod.ext rfl ?_
    exact Failing.bind_ok.mpr ⟨manualTargets, targets, Failing.bind_ok.mpr ⟨groups, loop, rfl⟩⟩
  · rw [← each id, Built.group, lookup_map_snd]
    cases groups.lookup id <;> rfl

/-- `build` on tables whose merges are sound, when every failure is assigned to a row. -/
theorem build_ok {q : ScanRequest} {s : Tables}
    (discovered : t.discoverAll (c.discoveries q.scan.evidence) = s) (sound : Sound s.incidents)
    (assigned : c.Assigned q s) :
    ∃ b, c.build t q.scan q.environment q.serviceId = (s, .ok b) ∧
      b.states.map Prod.fst = (s.within q.environment q.serviceId).incidents ∧
      (∀ e ∈ q.scan.evidence, ∃ i ∈ b.unmerged, i.scope = e.scope ∧
        ∀ id, e ∈ b.group id ↔ id = i.incidentId) ∧
      (b.failureCounts.map Prod.snd).sum = q.scan.observedFailures := by
  obtain ⟨b, built, states, group⟩ := build_groups discovered sound assigned
  have inside := sound.within q.environment q.serviceId
  have ends := root_ok sound assigned
  have unmerged : b.unmerged =
      (s.within q.environment q.serviceId).incidents.filter (!·.merged) := by
    rw [Built.unmerged, states]
  refine ⟨b, built, states, fun e he => ?_, ?_⟩
  · obtain ⟨i, hi, scope, free, named, -⟩ := ends e he
    refine ⟨i, ?_, scope, fun id => ?_⟩
    · rw [unmerged]
      exact List.mem_filter.mpr ⟨hi, by rw [free]; rfl⟩
    · rw [group, Builtins.newestFirst, List.mem_insertionSort, List.mem_filter, named]
      simp [he, eq_comm]
  · have distinct : (b.unmerged.map Incident.incidentId).Nodup := by
      rw [unmerged]
      exact inside.ids.sublist (List.filter_sublist.map _)
    have listed : ∀ e ∈ q.scan.evidence, c.root q s e ∈ b.unmerged.map Incident.incidentId := by
      intro e he
      obtain ⟨i, hi, -, free, named, -⟩ := ends e he
      rw [unmerged, ← named]
      exact List.mem_map_of_mem (List.mem_filter.mpr ⟨hi, by rw [free]; rfl⟩)
    rw [map_failureCounts]
    simp only [group, Builtins.newestFirst, List.length_insertionSort]
    have total := sum_groups distinct listed
    rwa [List.map_map] at total

end Partition

theorem incidents_partition (c : Builtins) (ls : List Transaction) (q : ScanRequest)
    (apart : HashesApart c (ls ++ [.snapshot q])) :
    (∀ id, ¬Leads (target (Tables.run c ls).incidents) id id) ∧
    (∀ i ∈ (Tables.run c ls).incidents, ∀ next, i.into = some next →
      ∃ j ∈ (Tables.run c ls).incidents, j.incidentId = next ∧ j.scope = i.scope) ∧
    (∀ environment serviceId, ∀ i ∈ ((Tables.run c ls).within environment serviceId).incidents,
      ∃ root ∈ ((Tables.run c ls).within environment serviceId).incidents,
        resolve ((Tables.run c ls).within environment serviceId).incidents [] i.incidentId =
          .ok root.incidentId ∧ root.merged = false) ∧
    (∀ source observed, ∃ members, (Tables.run c ls).members source observed = .ok members) ∧
    ∃ b, c.build (Tables.run c ls) q.scan q.environment q.serviceId =
        (Tables.run c (ls ++ [.snapshot q]), .ok b) ∧
      b.states.map Prod.fst =
        ((Tables.run c (ls ++ [.snapshot q])).within q.environment q.serviceId).incidents ∧
      (∀ e ∈ q.scan.evidence, ∃ i ∈ b.unmerged, i.scope = e.scope ∧
        ∀ id, e ∈ b.group id ↔ id = i.incidentId) ∧
      (b.failureCounts.map Prod.snd).sum = q.scan.observedFailures := by
  have valid (ls' : List Transaction) (sub : ls' ⊆ ls ++ [.snapshot q]) :
      Valid c ((ls ++ [Transaction.snapshot q]).flatMap Transaction.evidence)
        ((ls ++ [Transaction.snapshot q]).flatMap Transaction.newIds) (Tables.run c ls') :=
    Valid.run apart.digests apart.uuids
      (fun l hl e he => List.mem_flatMap.mpr ⟨l, sub hl, he⟩)
      (fun l hl id hid => List.mem_flatMap.mpr ⟨l, sub hl, hid⟩)
  have before := (valid ls (List.subset_append_left _ _)).sound
  have after := valid _ (List.Subset.refl _)
  have last : Tables.run c (ls ++ [.snapshot q]) =
      (Tables.run c ls).discoverAll (c.discoveries q.scan.evidence) := by
    rw [Tables.run, List.foldl_append]
    rfl
  have assigned : ∀ e ∈ q.scan.evidence, ∃ i ∈ ((Tables.run c (ls ++ [.snapshot q])).within
      q.environment q.serviceId).incidents, i.scope = e.scope ∧ i.incidentId =
        c.assigned q.scan.evidence ((Tables.run c (ls ++ [.snapshot q])).within
          q.environment q.serviceId).overrides e := by
    intro e he
    have known : e ∈ (ls ++ [Transaction.snapshot q]).flatMap Transaction.evidence :=
      List.mem_flatMap.mpr ⟨.snapshot q, by simp, he⟩
    have discovered : c.naturalId e ∈ (Tables.run c (ls ++ [.snapshot q])).ids := by
      rw [last]
      exact naturalId_mem_ids he
    exact after.assigned apart.apart apart.digests apart.uuids he known discovered
  refine ⟨before.grounded.acyclic, before.closed, fun environment serviceId i hi => ?_,
    members_ok before, build_ok last.symm after.sound assigned⟩
  obtain ⟨root, hroot, done, -, unmerged⟩ := (before.within environment serviceId).resolve hi
  exact ⟨root, hroot, done, merged_eq_false.mpr unmerged⟩

def boomDigest : String := "8df547f153712c650357ae19d63a3cc8ac6b3df4aa5ec74388408446ea7d5ca7"

/-- The dimensions of two failures that are scanned, as they are hashed. -/
def boomText : Text where
  str := plainText.str
  dumps _ := "\x7b\"environment\": \"prod\", \"error_type\": \"unknown\", " ++
    "\"queue_name\": \"q\", " ++
    "\"service_id\": \"svc\", \"signature\": \"boom\", \"signature_version\": \"1\", " ++
    "\"stage\": \"unknown\"\x7d"
  sha256 _ := boomDigest
  str_str := plainText.str_str

def boomBuiltins : Builtins := ⟨boomText, id, id, id, fun _ => none⟩

def boomFailure (failureId : String) : Value :=
  .dict [("failure_id", .str failureId), ("queue_name", .str "q"), ("error_message", .str "boom")]

def boomRequest : ScanRequest where
  services := [⟨"svc", "prod", false⟩]
  distinct := List.nodup_singleton _
  answer _ _ := .ok [("items", .list [boomFailure "f1", boomFailure "f2"])]
  now := 0

def boomEvidence (failureId : String) : Evidence :=
  { failureId, serviceId := "svc", environment := "prod", queueName := some "q",
    errorMessage := some "boom" }

theorem boomRequest_evidence :
    boomRequest.scan.evidence = [boomEvidence "f1", boomEvidence "f2"] := by
  decide +kernel

theorem boom_dimensions : ∀ e ∈ boomRequest.scan.evidence, boomBuiltins.dimensions e =
    { environment := "prod", serviceId := "svc", queueName := "q", stage := "unknown",
      errorType := "unknown", signature := "boom" } := by
  rw [boomRequest_evidence]
  decide +kernel

def splitBoom : List Transaction :=
  [.snapshot boomRequest,
   .split boomDigest 0 ["f1"] [("f1", boomDigest), ("f2", boomDigest)]
    "6f1c2d3e4b5a4c7d8e9f0a1b2c3d4e5f"]

theorem splitBoom_apart : HashesApart boomBuiltins (splitBoom ++ [.snapshot boomRequest]) := by
  have scanned : ∀ e ∈ (splitBoom ++ [Transaction.snapshot boomRequest]).flatMap
      Transaction.evidence,
      e ∈ boomRequest.scan.evidence := by
    simp [splitBoom, Transaction.evidence]
  have digest : boomDigest.length = 64 := by decide
  refine ⟨fun e he e' he' _ => ?_, fun _ _ => digest, by decide⟩
  rw [boom_dimensions e (scanned e he), boom_dimensions e' (scanned e' he')]

theorem splitBoom_partition :
    (Tables.run boomBuiltins splitBoom).ids =
      [boomDigest, "6f1c2d3e4b5a4c7d8e9f0a1b2c3d4e5f"] ∧
    ∃ b, boomBuiltins.build (Tables.run boomBuiltins splitBoom) boomRequest.scan none none =
        (Tables.run boomBuiltins (splitBoom ++ [.snapshot boomRequest]), .ok b) ∧
      (b.failureCounts.map Prod.snd).sum = 2 := by
  refine ⟨by decide +kernel, ?_⟩
  obtain ⟨-, -, -, -, b, built, -, -, counts⟩ :=
    incidents_partition boomBuiltins splitBoom boomRequest splitBoom_apart
  exact ⟨b, built, counts.trans (congrArg List.length boomRequest_evidence)⟩

end Relayna.Studio.Incidents
