import Relayna.Storage.LeaseExclusion

/-!
# The leases of an owner

`acquire` adds a lease id to the set of its owner and `release` takes it out; a key that expires
leaves its id in the set. `list_by_owner` loads whatever the ids of the set name by then.

An id is named for one owner at a time as long as nobody else acquires it before it has been taken
out of the set, and as long as a heartbeat writes no lease that has been released in between.
-/
namespace Relayna.Storage.Leases

open Transition

/-- `list_by_owner`, in the order in which Redis lists the members of the set. -/
def LeaseStore.listByOwner (s : LeaseStore) (ownerId : String) : Multiset TaskLease :=
  (s.keys.owners ownerId).val.filterMap fun leaseId =>
    (s.keys.get s.clock leaseId).map StoredLease.lease

/-- The lease that an acquire is about to add to the set of its owner. -/
def Call.adding : Call → Option TaskLease
  | .indexLease lease _ => some lease
  | _ => none

/-- The lease id a heartbeat is about to write, the record it has read and the new lease. -/
def Call.beating : Call → Option (String × StoredLease × TaskLease)
  | .writeHeartbeat leaseId _ read updated _ => some (leaseId, read, updated)
  | _ => none

/-- The lease id is in the set of the owner, or an acquire of it is about to add it. -/
def LeaseStore.Names (s : LeaseStore) (leaseId ownerId : String) : Prop :=
  leaseId ∈ s.keys.owners ownerId ∨ ∃ n lease, (s.calls n).bind Call.adding = some lease ∧
    lease.leaseId = leaseId ∧ lease.ownerId = ownerId

/-- An acquire succeeds only when its lease id is not named for another owner, its pipeline does
not fail, and a heartbeat writes a lease only while that is in the set of its owner. -/
structure Indexed (s : LeaseStore) (l : LeaseStep) : Prop where
  acquire : ∀ n lease ttl, l = .await n .ok → s.calls n = some (.setLease lease ttl) →
    s.keys.get s.clock lease.leaseId = none →
      ∀ ownerId, s.Names lease.leaseId ownerId → ownerId = lease.ownerId
  index : ∀ n reply lease, l = .await n reply → (s.calls n).bind Call.adding = some lease →
    reply = .ok
  heartbeat : ∀ n leaseId read updated, l = .await n .ok →
    (s.calls n).bind Call.beating = some (leaseId, read, updated) →
      leaseId ∈ s.keys.owners read.lease.ownerId

structure ListingInv (s : LeaseStore) : Prop where
  single : ∀ leaseId ownerId ownerId', s.Names leaseId ownerId → s.Names leaseId ownerId' →
    ownerId = ownerId'
  record : ∀ leaseId stored, s.keys.leases leaseId = some stored →
    stored.lease.leaseId = leaseId ∧ s.Names leaseId stored.lease.ownerId
  heartbeat : ∀ n leaseId read updated,
    (s.calls n).bind Call.beating = some (leaseId, read, updated) →
      updated.leaseId = leaseId ∧ updated.ownerId = read.lease.ownerId

theorem ListingInv.initial : ListingInv LeaseStore.init := by
  constructor <;> simp [LeaseStore.init, LeaseKeys.init, LeaseStore.Names]

/-- The cleanup pipeline touches no set of an owner. -/
theorem Call.foldl_cleanOne_owners (now : Int) (payloads : List (String × Option StoredLease))
    (k : LeaseKeys) : (payloads.foldl (cleanOne now) k).owners = k.owners := by
  induction payloads generalizing k with
  | nil => rfl
  | cons claimed payloads ih =>
    have one : (cleanOne now k claimed).owners = k.owners := by
      unfold cleanOne
      split
      · rfl
      · split <;> rfl
    rw [List.foldl_cons, ih, one]

/-- What a call turns into has to be right about the lease it will write. -/
def Call.Written (p : Call) : Prop :=
  ∀ leaseId read updated, p.beating = some (leaseId, read, updated) →
    updated.leaseId = leaseId ∧ updated.ownerId = read.lease.ownerId

theorem Call.Written.of_none {p : Call} (h : p.beating = none) : p.Written := by
  intro leaseId read updated hp
  rw [h] at hp
  cases hp

/-- Everything one command can do to the lease keys and to the sets of the owners. -/
inductive Call.Listing (clock : Int) (k : LeaseKeys) (p : Call) (reply : Reply) (p' : Call)
    (k' : LeaseKeys) : Prop where
  | set (lease : TaskLease) (ttl : Int) (stored : StoredLease) (here : p = .setLease lease ttl)
      (ok : reply = .ok) (absent : k.get clock lease.leaseId = none)
      (adding : p'.adding = some lease) (quiet : p'.beating = none) (written : stored.lease = lease)
      (leases : k'.leases = Function.update k.leases lease.leaseId (some stored))
      (owners : k'.owners = k.owners)
  | index (lease : TaskLease) (here : p.adding = some lease) (adding : p'.adding = none)
      (quiet : p'.beating = none) (leases : k'.leases = k.leases)
      (owners : k'.owners = Function.update k.owners lease.ownerId
        (insert lease.leaseId (k.owners lease.ownerId)))
  | unindexed (lease : TaskLease) (here : p.adding = some lease) (failed : reply ≠ .ok)
  | beat (leaseId : String) (read : StoredLease) (updated : TaskLease) (stored : StoredLease)
      (here : p.beating = some (leaseId, read, updated)) (ok : reply = .ok)
      (notAdding : p.adding = none) (adding : p'.adding = none) (quiet : p'.beating = none)
      (written : stored.lease = updated)
      (leases : k'.leases = Function.update k.leases leaseId (some stored))
      (owners : k'.owners = k.owners)
  | release (leaseId ownerId : String) (notAdding : p.adding = none) (adding : p'.adding = none)
      (quiet : p'.beating = none) (leases : k'.leases = Function.update k.leases leaseId none)
      (owners : k'.owners = Function.update k.owners ownerId ((k.owners ownerId).erase leaseId))
  | other (notAdding : p.adding = none) (adding : p'.adding = none) (right : p'.Written)
      (leases : k'.leases = k.leases) (owners : k'.owners = k.owners)

theorem Call.Listing.same {clock : Int} {k : LeaseKeys} {p : Call} {reply : Reply} {p' : Call}
    (notAdding : p.adding = none) (adding : p'.adding = none) (quiet : p'.beating = none) :
    Call.Listing clock k p reply p' k :=
  .other notAdding adding (.of_none quiet) rfl rfl

theorem Call.await_listing (clock : Int) (k : LeaseKeys) (p : Call) (reply : Reply)
    (records : ∀ leaseId stored, k.leases leaseId = some stored → stored.lease.leaseId = leaseId) :
    Call.Listing clock k p reply (p.await clock k reply).1 (p.await clock k reply).2 := by
  cases reply with
  | ok =>
    cases p with
    | setLease lease ttl =>
      simp only [await]
      split
      · exact .same rfl rfl rfl
      · next absent =>
        exact .set lease ttl _ rfl rfl (by simpa using absent) rfl rfl rfl rfl rfl
    | indexLease lease generation => exact .index lease rfl rfl rfl rfl rfl
    | writeHeartbeat leaseId generation read updated ttl =>
      exact .beat leaseId read updated _ rfl rfl rfl rfl rfl rfl rfl rfl
    | writeRelease leaseId ownerId generation read =>
      exact .release leaseId ownerId rfl rfl rfl rfl rfl
    | getForHeartbeat leaseId ownerId generation expiresAt =>
      simp only [await]
      split
      · exact .same rfl rfl rfl
      · next stored found =>
        split
        · exact .same rfl rfl rfl
        · refine .other rfl rfl ?_ rfl rfl
          rintro id read updated ⟨⟩
          exact ⟨records leaseId stored (Option.filter_eq_some_iff.mp found).1, rfl⟩
    | getForRelease leaseId ownerId generation =>
      simp only [await]
      split
      · exact .same rfl rfl rfl
      · split <;> exact .same rfl rfl rfl
    | listExpired now limit =>
      simp only [await]
      split <;> exact .same rfl rfl rfl
    | claimListed now leaseIds =>
      simp only [await]
      split <;> exact .other rfl rfl (.of_none rfl) rfl rfl
    | cleanUp now payloads =>
      exact .other rfl rfl (.of_none rfl) (foldl_cleanOne_leases now payloads k).1
        (foldl_cleanOne_owners now payloads k)
    | getForRetry leaseId retry =>
      simp only [await]
      split <;> exact .same rfl rfl rfl
    | _ => exact .other rfl rfl (.of_none rfl) rfl rfl
  | _ =>
    cases p with
    | indexLease lease generation => exact .unindexed lease rfl (by decide)
    | _ => exact .same rfl rfl rfl

/-- An acquire other than the `n`-th call is about to add the lease id to the set of the owner. -/
def LeaseStore.AddsElsewhere (s : LeaseStore) (n : Nat) (leaseId ownerId : String) : Prop :=
  ∃ m lease, m ≠ n ∧ (s.calls m).bind Call.adding = some lease ∧ lease.leaseId = leaseId ∧
    lease.ownerId = ownerId

theorem LeaseStore.names_iff (s : LeaseStore) (n : Nat) (leaseId ownerId : String) :
    s.Names leaseId ownerId ↔ leaseId ∈ s.keys.owners ownerId ∨
      (∃ lease, (s.calls n).bind Call.adding = some lease ∧ lease.leaseId = leaseId ∧
        lease.ownerId = ownerId) ∨ s.AddsElsewhere n leaseId ownerId := by
  refine or_congr_right ⟨?_, ?_⟩
  · rintro ⟨m, lease, adds, names⟩
    by_cases hm : m = n
    · exact .inl ⟨lease, hm ▸ adds, names⟩
    · exact .inr ⟨m, lease, hm, adds, names⟩
  · rintro (⟨lease, adds, names⟩ | ⟨m, lease, -, adds, names⟩)
    · exact ⟨n, lease, adds, names⟩
    · exact ⟨m, lease, adds, names⟩

/-- The store after the `n`-th call has moved. -/
def LeaseStore.moved (s : LeaseStore) (n : Nat) (p : Call) (keys : LeaseKeys) : LeaseStore :=
  { s with keys := keys, calls := Function.update s.calls n (some p) }

section Moved

variable {s : LeaseStore} {n : Nat} {p : Call} {keys : LeaseKeys} {leaseId ownerId : String}

theorem LeaseStore.moved_names_iff : (s.moved n p keys).Names leaseId ownerId ↔
    leaseId ∈ keys.owners ownerId ∨
      (∃ lease, p.adding = some lease ∧ lease.leaseId = leaseId ∧ lease.ownerId = ownerId) ∨
      s.AddsElsewhere n leaseId ownerId := by
  have here : ((s.moved n p keys).calls n).bind Call.adding = p.adding := by simp [moved]
  have elsewhere : (s.moved n p keys).AddsElsewhere n leaseId ownerId ↔
      s.AddsElsewhere n leaseId ownerId := by
    refine exists_congr fun m => exists_congr fun lease => and_congr_right fun hm => ?_
    simp [moved, Function.update_of_ne hm]
  rw [names_iff _ n, here, elsewhere]
  rfl

theorem LeaseStore.moved_names_of_none (was : (s.calls n).bind Call.adding = none)
    (adding : p.adding = none) (owners : keys.owners = s.keys.owners) :
    (s.moved n p keys).Names leaseId ownerId ↔ s.Names leaseId ownerId := by
  simp [moved_names_iff, names_iff s n, was, adding, owners]

/-- What the `n`-th call has become is about to write no heartbeat, or the right one. -/
theorem ListingInv.moved_heartbeat (h : ListingInv s) (right : p.Written) (m : Nat)
    (leaseId : String) (read : StoredLease) (updated : TaskLease)
    (beats : ((s.moved n p keys).calls m).bind Call.beating = some (leaseId, read, updated)) :
    updated.leaseId = leaseId ∧ updated.ownerId = read.lease.ownerId := by
  by_cases hm : m = n
  · subst hm
    simp only [LeaseStore.moved, Function.update_self, Option.bind_some] at beats
    exact right leaseId read updated beats
  · simp only [LeaseStore.moved, Function.update_of_ne hm] at beats
    exact h.heartbeat m leaseId read updated beats

end Moved

section Step

variable {s t : LeaseStore} {n : Nat}

/-- A call that starts neither adds nor writes anything yet. -/
theorem ListingInv.begin (h : ListingInv s) {call : Call} (adding : call.adding = none)
    (quiet : call.beating = none) (hs : s.begin n call = some t) : ListingInv t := by
  obtain ⟨new, rfl⟩ := LeaseStore.begin_eq_some hs
  have names : ∀ leaseId ownerId, (s.moved n call s.keys).Names leaseId ownerId ↔
      s.Names leaseId ownerId := fun leaseId ownerId =>
    LeaseStore.moved_names_of_none (by rw [new]; rfl) adding rfl
  exact
    { single := fun leaseId o o' ho ho' =>
        h.single leaseId o o' ((names _ _).mp ho) ((names _ _).mp ho')
      record := fun leaseId stored found =>
        ⟨(h.record leaseId stored found).1, (names _ _).mpr (h.record leaseId stored found).2⟩
      heartbeat := h.moved_heartbeat (.of_none quiet) }

theorem ListingInv.await (h : ListingInv s) {p : Call} {reply : Reply}
    (indexed : Indexed s (.await n reply)) (hn : s.calls n = some p) :
    ListingInv (s.moved n (p.await s.clock s.keys reply).1
      (p.await s.clock s.keys reply).2) := by
  have did := Call.await_listing s.clock s.keys p reply fun leaseId stored found =>
    (h.record leaseId stored found).1
  generalize (p.await s.clock s.keys reply).1 = p', (p.await s.clock s.keys reply).2 = k' at did ⊢
  have was : (s.calls n).bind Call.adding = p.adding := by rw [hn]; rfl
  cases did with
  | set lease ttl stored here ok absent adding quiet written leases owners =>
    subst here ok
    have names : ∀ leaseId ownerId, (s.moved n p' k').Names leaseId ownerId ↔
        s.Names leaseId ownerId ∨ (lease.leaseId = leaseId ∧ lease.ownerId = ownerId) := by
      intro leaseId ownerId
      have none : (Call.setLease lease ttl).adding = none := rfl
      rw [LeaseStore.moved_names_iff, LeaseStore.names_iff s n, was, none]
      simp only [adding, owners, Option.some.injEq, exists_eq_left', reduceCtorEq, false_and,
        exists_false, false_or]
      tauto
    have owned := indexed.acquire n lease ttl rfl hn absent
    refine ⟨fun leaseId o o' ho ho' => ?_, fun leaseId st found => ?_,
      h.moved_heartbeat (.of_none quiet)⟩
    · rw [names] at ho ho'
      rcases ho with ho | ⟨rfl, rfl⟩ <;> rcases ho' with ho' | ⟨same, rfl⟩
      · exact h.single leaseId o o' ho ho'
      · exact owned o (same ▸ ho)
      · exact (owned o' ho').symm
      · rfl
    · simp only [names]
      simp only [LeaseStore.moved, leases] at found
      by_cases hl : leaseId = lease.leaseId
      · subst hl
        rw [Function.update_self] at found
        obtain rfl := Option.some.inj found
        exact ⟨by rw [written], .inr ⟨rfl, by rw [written]⟩⟩
      · rw [Function.update_of_ne hl] at found
        exact ⟨(h.record leaseId st found).1, .inl (h.record leaseId st found).2⟩
  | index lease here adding quiet leases owners =>
    have names : ∀ leaseId ownerId, (s.moved n p' k').Names leaseId ownerId ↔
        s.Names leaseId ownerId := by
      intro leaseId ownerId
      rw [LeaseStore.moved_names_iff, LeaseStore.names_iff s n, was]
      have inserted : leaseId ∈ k'.owners ownerId ↔ leaseId ∈ s.keys.owners ownerId ∨
          (lease.leaseId = leaseId ∧ lease.ownerId = ownerId) := by
        rw [owners]
        by_cases ho : ownerId = lease.ownerId
        · subst ho
          simp only [Function.update_self, Finset.mem_insert, and_true]
          tauto
        · have hne : ¬lease.ownerId = ownerId := fun e => ho e.symm
          simp [Function.update_of_ne ho, hne]
      simp only [adding, here, inserted, Option.some.injEq, exists_eq_left', reduceCtorEq,
        false_and, exists_false, false_or]
      tauto
    refine ⟨fun leaseId o o' ho ho' => ?_, fun leaseId stored found => ?_,
      h.moved_heartbeat (.of_none quiet)⟩
    · exact h.single leaseId o o' ((names _ _).mp ho) ((names _ _).mp ho')
    · simp only [LeaseStore.moved, leases] at found
      exact ⟨(h.record leaseId stored found).1, (names _ _).mpr (h.record leaseId stored found).2⟩
  | unindexed lease here failed =>
    exact absurd (indexed.index n reply lease rfl (was.trans here)) failed
  | beat leaseId read updated stored here ok notAdding adding quiet written leases owners =>
    have names : ∀ leaseId ownerId, (s.moved n p' k').Names leaseId ownerId ↔
        s.Names leaseId ownerId := fun _ _ =>
      LeaseStore.moved_names_of_none (was.trans notAdding) adding owners
    have beats : (s.calls n).bind Call.beating = some (leaseId, read, updated) := by
      rw [hn]
      exact here
    obtain ⟨id, owner⟩ := h.heartbeat n leaseId read updated beats
    subst ok
    have owned := indexed.heartbeat n leaseId read updated rfl beats
    refine ⟨fun leaseId o o' ho ho' => ?_, fun leaseId' st found => ?_,
      h.moved_heartbeat (.of_none quiet)⟩
    · exact h.single leaseId o o' ((names _ _).mp ho) ((names _ _).mp ho')
    · simp only [names]
      simp only [LeaseStore.moved, leases] at found
      by_cases hl : leaseId' = leaseId
      · subst hl
        rw [Function.update_self] at found
        obtain rfl := Option.some.inj found
        exact ⟨by rw [written, id], .inl (by rw [written, owner]; exact owned)⟩
      · rw [Function.update_of_ne hl] at found
        exact h.record leaseId' st found
  | release leaseId ownerId notAdding adding quiet leases owners =>
    have stays : ∀ id o, id ∈ k'.owners o ↔
        id ∈ s.keys.owners o ∧ ¬(id = leaseId ∧ o = ownerId) := by
      intro id o
      rw [owners]
      by_cases ho : o = ownerId
      · subst ho
        simp only [Function.update_self, Finset.mem_erase, and_true]
        tauto
      · simp [ho]
    have names : ∀ id o, (s.moved n p' k').Names id o ↔
        (id ∈ s.keys.owners o ∧ ¬(id = leaseId ∧ o = ownerId)) ∨ s.AddsElsewhere n id o := by
      intro id o
      rw [LeaseStore.moved_names_iff]
      simp only [adding, stays, reduceCtorEq, false_and, exists_false, false_or]
    have before : ∀ id o, s.Names id o ↔ id ∈ s.keys.owners o ∨ s.AddsElsewhere n id o := by
      intro id o
      rw [LeaseStore.names_iff s n, was]
      simp only [notAdding, reduceCtorEq, false_and, exists_false, false_or]
    have named : ∀ id o, (s.moved n p' k').Names id o → s.Names id o := by
      intro id o ho
      rw [names] at ho
      rw [before]
      exact ho.imp_left And.left
    refine ⟨fun id o o' ho ho' => h.single id o o' (named _ _ ho) (named _ _ ho'),
      fun id st found => ?_, h.moved_heartbeat (.of_none quiet)⟩
    simp only [LeaseStore.moved, leases] at found
    by_cases hl : id = leaseId
    · subst hl
      rw [Function.update_self] at found
      cases found
    · rw [Function.update_of_ne hl] at found
      obtain ⟨same, name⟩ := h.record id st found
      rw [before] at name
      rw [names]
      exact ⟨same, name.imp_left fun mem => ⟨mem, fun both => hl both.1⟩⟩
  | other notAdding adding right leases owners =>
    have names : ∀ leaseId ownerId, (s.moved n p' k').Names leaseId ownerId ↔
        s.Names leaseId ownerId := fun _ _ =>
      LeaseStore.moved_names_of_none (was.trans notAdding) adding owners
    refine ⟨fun leaseId o o' ho ho' => ?_, fun leaseId stored found => ?_, h.moved_heartbeat right⟩
    · exact h.single leaseId o o' ((names _ _).mp ho) ((names _ _).mp ho')
    · simp only [LeaseStore.moved, leases] at found
      exact ⟨(h.record leaseId stored found).1, (names _ _).mpr (h.record leaseId stored found).2⟩

theorem ListingInv.next (h : ListingInv s) {l : LeaseStep} (indexed : Indexed s l)
    (hs : leaseStore.next s l = some t) : ListingInv t := by
  cases l with
  | acquire n lease => exact h.begin rfl rfl hs
  | heartbeat n holder expiresAt =>
    obtain ⟨_, -, hs⟩ := Option.bind_eq_some_iff.mp hs
    exact h.begin rfl rfl hs
  | release n holder =>
    obtain ⟨_, -, hs⟩ := Option.bind_eq_some_iff.mp hs
    exact h.begin rfl rfl hs
  | claimExpired n now limit => exact h.begin rfl rfl hs
  | releaseExpiredClaim n leaseId retry => exact h.begin rfl rfl hs
  | await n reply =>
    obtain ⟨p, hn, rfl⟩ := Option.map_eq_some_iff.mp hs
    exact h.await indexed hn
  | tick microseconds =>
    cases hs
    exact ⟨h.single, h.record, h.heartbeat⟩

end Step

/-- What `list_by_owner` is for. A lease whose acquire has not returned yet need not be listed. -/
structure LeaseStore.Lists (s : LeaseStore) (ownerId : String) : Prop where
  owned : ∀ lease ∈ s.listByOwner ownerId, lease.ownerId = ownerId
  live : ∀ leaseId stored, s.keys.get s.clock leaseId = some stored →
    stored.lease.ownerId = ownerId → stored.lease ∈ s.listByOwner ownerId ∨
      ∃ n lease, (s.calls n).bind Call.adding = some lease ∧ lease.leaseId = leaseId ∧
        lease.ownerId = ownerId
  once : (s.listByOwner ownerId).Nodup

theorem LeaseStore.mem_listByOwner {s : LeaseStore} {ownerId : String} {lease : TaskLease} :
    lease ∈ s.listByOwner ownerId ↔ ∃ leaseId ∈ s.keys.owners ownerId, ∃ stored,
      s.keys.get s.clock leaseId = some stored ∧ stored.lease = lease := by
  simp [listByOwner]

theorem ListingInv.lists {s : LeaseStore} (h : ListingInv s) (ownerId : String) :
    s.Lists ownerId := by
  have record : ∀ {leaseId stored}, s.keys.get s.clock leaseId = some stored →
      stored.lease.leaseId = leaseId ∧ s.Names leaseId stored.lease.ownerId := fun found =>
    h.record _ _ (Option.filter_eq_some_iff.mp found).1
  refine ⟨fun lease listed => ?_, fun leaseId stored found owner => ?_, ?_⟩
  · obtain ⟨leaseId, mem, stored, found, rfl⟩ := LeaseStore.mem_listByOwner.mp listed
    exact h.single leaseId _ _ (record found).2 (.inl mem)
  · rcases owner ▸ (record found).2 with mem | adds
    · exact .inl (LeaseStore.mem_listByOwner.mpr ⟨leaseId, mem, stored, found, rfl⟩)
    · exact .inr adds
  · refine Multiset.Nodup.filterMap _ (fun id id' lease hid hid' => ?_) (Finset.nodup _)
    obtain ⟨stored, found, rfl⟩ := Option.map_eq_some_iff.mp hid
    obtain ⟨stored', found', same⟩ := Option.map_eq_some_iff.mp hid'
    rw [← (record found).1, ← (record found').1, same]

/-- In every run whose steps keep the sets of the owners apart, the listing of every owner is
right. -/
theorem owner_listing (ls : List LeaseStep) (s : LeaseStore)
    (along : leaseStore.Along Indexed LeaseStore.init ls)
    (run : leaseStore.exec LeaseStore.init ls = some s) (ownerId : String) : s.Lists ownerId :=
  (Machine.invariant_along (fun _ _ _ h indexed hs => h.next indexed hs) ListingInv.initial along
    run).lists ownerId

theorem owner_listing_in_acquireThenRelease :
    ∃ s, leaseStore.exec LeaseStore.init (acquireThenRelease.take 3) = some s ∧
      s.listByOwner "w" = {minuteLease 0 "w"} ∧ s.Lists "w" := by
  refine ⟨_, rfl, rfl, owner_listing (acquireThenRelease.take 3) _ ?_ rfl "w"⟩
  have quiet : ∀ (s : LeaseStore) (l : LeaseStep), (∀ n reply, l ≠ .await n reply) → Indexed s l :=
    fun s l h => ⟨fun n lease ttl hl => absurd hl (h n .ok), fun n reply lease hl =>
      absurd hl (h n reply), fun n leaseId read updated hl => absurd hl (h n .ok)⟩
  refine .cons (quiet _ _ (by rintro n reply ⟨⟩)) rfl <| .cons ⟨?_, ?_, ?_⟩ rfl <|
    .cons ⟨?_, ?_, ?_⟩ rfl trivial
  · rintro n lease ttl ⟨⟩ ⟨⟩ _ ownerId (mem | ⟨m, lease, adds, -⟩)
    · exact absurd mem (Finset.notMem_empty _)
    · obtain ⟨p, hp, adds⟩ := Option.bind_eq_some_iff.mp adds
      rcases update_some_cases hp with ⟨-, rfl⟩ | ⟨-, hp⟩
      · cases adds
      · cases hp
  · rintro n reply lease ⟨⟩ ⟨⟩
  · rintro n leaseId read updated ⟨⟩ ⟨⟩
  · rintro n lease ttl ⟨⟩ ⟨⟩
  · rintro n reply lease ⟨⟩ _
    rfl
  · rintro n leaseId read updated ⟨⟩ ⟨⟩

/-- The lease of the first owner expires and leaves its id in the set; the second owner acquires
the same id and is then listed for both. -/
theorem expired_id_lists_the_next_owner :
    ¬ ∀ (ls : List LeaseStep) (s : LeaseStore), leaseStore.exec LeaseStore.init ls = some s →
      ∀ ownerId, s.Lists ownerId := by
  intro h
  have owned := (h [.acquire 0 (minuteLease 0 "v"), .await 0 .ok, .await 0 .ok, .tick 60001000,
    .acquire 1 (minuteLease 60001000 "w"), .await 1 .ok, .await 1 .ok] _ rfl "v").owned
  have listed : minuteLease 60001000 "w" ∈ ({minuteLease 60001000 "w"} : Multiset TaskLease) :=
    Multiset.mem_singleton_self _
  exact absurd (owned _ listed) (by decide)

end Relayna.Storage.Leases
