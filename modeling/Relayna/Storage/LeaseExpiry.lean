import Relayna.Storage.LeaseExclusion

/-!
# Reporting an abandoned lease

A lease is watched from the `SET` of its acquire on, while nobody renews, releases or acquires it
again. It is first not indexed, then waits in the sorted set, is claimed by one scan and reported
by that scan. Whether the claiming scan can report it depends on a third deadline, that of the
lease key: the scan has to read the payload while the key is still there.
-/
namespace Relayna.Storage.Leases

open Transition

namespace Call

/-- A scan that has listed the lease id and is not done with it. -/
def Lists (leaseId : String) : Call → Prop
  | .claimListed _ leaseIds => leaseId ∈ leaseIds
  | .readClaimed _ claimedIds => leaseId ∈ claimedIds
  | .cleanUp _ payloads => leaseId ∈ payloads.map Prod.fst
  | _ => False

/-- The scan that has claimed the lease id. -/
def HasClaimed (leaseId : String) : Call → Prop
  | .readClaimed _ claimedIds => leaseId ∈ claimedIds
  | .cleanUp _ payloads => leaseId ∈ payloads.map Prod.fst
  | _ => False

theorem HasClaimed.lists {leaseId : String} {p : Call} (h : p.HasClaimed leaseId) :
    p.Lists leaseId := by
  cases p <;> simp_all [HasClaimed, Lists]

/-- The call has sent a command about the lease id and will send another. -/
def Between (leaseId : String) (p : Call) : Prop :=
  p.Lists leaseId ∨ (∃ lease g, p = .indexLease lease g ∧ lease.leaseId = leaseId) ∨
    (∃ read g, p.pendingWrite = some (leaseId, read, g)) ∨ ∃ expiry, p = .unclaim leaseId expiry

end Call

/-- The acquire call, the key it sets, the reports of its lease id before that, and whether a scan
has been due to list it since. -/
structure Watch where
  holder : Nat
  stored : StoredLease
  reports : Nat
  seen : Bool

namespace Watch

variable (w : Watch)

def leaseId : String := w.stored.lease.leaseId

def indexing : Call := .indexLease w.stored.lease w.stored.generation

def acquired : Call := .acquired w.stored.lease w.stored.generation

end Watch

/-- The lease is acquired, and its owner neither renews nor releases it; nobody acquires its lease
id again. -/
structure Abandoned (w : Watch) (s : LeaseStore) (l : LeaseStep) : Prop where
  indexed : ∀ reply, l = .await w.holder reply → s.calls w.holder = some w.indexing → reply = .ok
  unwritten : ∀ n p read g, l = .await n .ok → s.calls n = some p →
    p.pendingWrite ≠ some (w.leaseId, read, g)
  unacquired : ∀ n lease ttl, l = .await n .ok → s.calls n = some (.setLease lease ttl) →
    lease.leaseId = w.leaseId → s.keys.get s.clock lease.leaseId ≠ none

/-- The scans of the lease id run through, the one that has claimed it reads the key before its
deadline, none lists it before it is indexed, and no claim is given back. -/
structure Timely (w : Watch) (s : LeaseStore) (l : LeaseStep) : Prop where
  succeeds : ∀ n p reply, l = .await n reply → s.calls n = some p → p.Lists w.leaseId → reply = .ok
  present : ∀ n now claimedIds, l = .await n .ok → s.calls n = some (.readClaimed now claimedIds) →
    w.leaseId ∈ claimedIds → (s.keys.get s.clock w.leaseId).isSome
  unlisted : ∀ n now limit, l = .await n .ok → s.calls n = some (.listExpired now limit) →
    s.calls w.holder = some w.indexing → w.leaseId ∉ s.keys.expiries.rangeByScore now limit
  kept : ∀ n expiry, l = .await n .ok → s.calls n ≠ some (.unclaim w.leaseId expiry)

/-- What a call can know of the watched lease. -/
def Call.Sound (w : Watch) (n : Nat) : Call → Prop
  | .indexLease lease g =>
    lease.leaseId = w.leaseId → n = w.holder ∧ Call.indexLease lease g = w.indexing
  | .claimListed now leaseIds =>
    leaseIds.count w.leaseId ≤ 1 ∧ (w.leaseId ∈ leaseIds → w.stored.lease.expiresAt ≤ now)
  | .readClaimed now claimedIds =>
    claimedIds.count w.leaseId ≤ 1 ∧ (w.leaseId ∈ claimedIds → w.stored.lease.expiresAt ≤ now)
  | .cleanUp now payloads =>
    (payloads.map Prod.fst).count w.leaseId ≤ 1 ∧ ∀ payload, (w.leaseId, payload) ∈ payloads →
      payload = some w.stored ∧ w.stored.lease.expiresAt ≤ now
  | _ => True

inductive Phase where
  | unindexed
  | waiting
  | claimed (n : Nat)
  | reported

def Phase.Holds (w : Watch) (s : LeaseStore) : Phase → Prop
  | .unindexed =>
    s.calls w.holder = some w.indexing ∧ (∀ n p, s.calls n = some p → ¬ p.Lists w.leaseId) ∧
      w.seen = false ∧ s.keys.reported.count w.leaseId = w.reports
  | .waiting =>
    s.calls w.holder = some w.acquired ∧
      (w.leaseId, w.stored.lease.expiresAt) ∈ s.keys.expiries.entries ∧
      w.leaseId ∉ s.keys.expiredClaims ∧
      (∀ n p, s.calls n = some p → ¬ p.HasClaimed w.leaseId) ∧
      (w.seen = true → ∃ n p, s.calls n = some p ∧ p.Lists w.leaseId) ∧
      s.keys.reported.count w.leaseId = w.reports
  | .claimed n =>
    s.calls w.holder = some w.acquired ∧ w.leaseId ∈ s.keys.expiredClaims ∧
      (∃ p, s.calls n = some p ∧ p.HasClaimed w.leaseId) ∧
      (∀ m p, s.calls m = some p → p.HasClaimed w.leaseId → m = n) ∧
      s.keys.reported.count w.leaseId = w.reports
  | .reported =>
    s.calls w.holder = some w.acquired ∧ w.leaseId ∈ s.keys.expiredClaims ∧
      (∀ n p, s.calls n = some p → ¬ p.HasClaimed w.leaseId) ∧
      s.keys.reported.count w.leaseId = w.reports + 1

structure Watched (w : Watch) (s : LeaseStore) : Prop where
  stored : s.keys.leases w.leaseId = some w.stored
  sound : ∀ n p, s.calls n = some p → p.Sound w n
  entry : s.calls w.holder = some w.acquired → ∀ score,
    (w.leaseId, score) ∈ s.keys.expiries.entries → score = w.stored.lease.expiresAt
  phase : ∃ phase : Phase, phase.Holds w s

/-- The keys agree on everything about one lease id. -/
structure SameFor (leaseId : String) (k k' : LeaseKeys) : Prop where
  leases : k'.leases leaseId = k.leases leaseId
  expiries : ∀ score, (leaseId, score) ∈ k'.expiries.entries ↔ (leaseId, score) ∈ k.expiries.entries
  claims : leaseId ∈ k'.expiredClaims ↔ leaseId ∈ k.expiredClaims
  reported : k'.reported.count leaseId = k.reported.count leaseId

theorem SameFor.refl (leaseId : String) (k : LeaseKeys) : SameFor leaseId k k :=
  ⟨rfl, fun _ => Iff.rfl, Iff.rfl, rfl⟩

theorem SameFor.trans {leaseId : String} {k k' k'' : LeaseKeys} (h : SameFor leaseId k k')
    (h' : SameFor leaseId k' k'') : SameFor leaseId k k'' :=
  ⟨h'.leases.trans h.leases, fun score => (h'.expiries score).trans (h.expiries score),
    h'.claims.trans h.claims, h'.reported.trans h.reported⟩

/-! ## The cleanup pipeline -/

section CleanUp

variable {leaseId : String} (now : Int)

theorem sameFor_cleanOne (k : LeaseKeys) {claimed : String × Option StoredLease}
    (other : claimed.1 ≠ leaseId) : SameFor leaseId k (Call.cleanOne now k claimed) := by
  have other' : leaseId ≠ claimed.1 := other.symm
  unfold Call.cleanOne
  split
  · constructor <;> simp [other']
  · split
    · constructor <;> simp [other']
    · constructor <;> simp [other', other]

theorem sameFor_foldl_cleanOne (payloads : List (String × Option StoredLease)) (k : LeaseKeys)
    (absent : leaseId ∉ payloads.map Prod.fst) :
    SameFor leaseId k (payloads.foldl (Call.cleanOne now) k) := by
  induction payloads generalizing k with
  | nil => exact .refl _ _
  | cons claimed payloads ih =>
    rw [List.map_cons, List.mem_cons, not_or] at absent
    exact (sameFor_cleanOne now k (Ne.symm absent.1)).trans (ih _ absent.2)

/-- A claimed lease that has expired is reported once; its claim stays and its entry goes. -/
theorem foldl_cleanOne_reported {stored : StoredLease}
    (payloads : List (String × Option StoredLease)) (k : LeaseKeys)
    (once : (payloads.map Prod.fst).count leaseId ≤ 1) (mem : (leaseId, some stored) ∈ payloads)
    (expired : stored.lease.expiresAt ≤ now) :
    let k' := payloads.foldl (Call.cleanOne now) k
    k'.leases leaseId = k.leases leaseId ∧ (∀ score, (leaseId, score) ∉ k'.expiries.entries) ∧
      (leaseId ∈ k'.expiredClaims ↔ leaseId ∈ k.expiredClaims) ∧
      k'.reported.count leaseId = k.reported.count leaseId + 1 := by
  obtain ⟨xs, ys, rfl⟩ := List.append_of_mem mem
  simp only [List.map_append, List.map_cons, List.count_append, List.count_cons_self] at once
  have hx : leaseId ∉ xs.map Prod.fst := List.count_eq_zero.mp (by omega)
  have hy : leaseId ∉ ys.map Prod.fst := List.count_eq_zero.mp (by omega)
  have first := sameFor_foldl_cleanOne now xs k hx
  have last := sameFor_foldl_cleanOne now ys
    (Call.cleanOne now (xs.foldl (Call.cleanOne now) k) (leaseId, some stored)) hy
  have here : Call.cleanOne now (xs.foldl (Call.cleanOne now) k) (leaseId, some stored) =
      { xs.foldl (Call.cleanOne now) k with
        expiries := (xs.foldl (Call.cleanOne now) k).expiries.remove leaseId
        reported := (xs.foldl (Call.cleanOne now) k).reported ++ [leaseId] } := by
    simp [Call.cleanOne, not_lt.mpr expired]
  rw [List.foldl_append, List.foldl_cons]
  refine ⟨?_, fun score => ?_, ?_, ?_⟩
  · rw [last.leases, here]
    exact first.leases
  · rw [last.expiries, here]
    simp
  · rw [last.claims, here]
    exact first.claims
  · rw [last.reported, here]
    simp [first.reported]

end CleanUp

/-! ## One step of the watched lease -/

section Step

variable {w : Watch} {s : LeaseStore} {n : Nat} {p : Call} {k : LeaseKeys} {clock : Int}

theorem indexing_ne_acquired (w : Watch) : w.indexing ≠ w.acquired := by
  rintro ⟨⟩

/-- A step of call `n` to `p` that leaves the watched lease in its phase. -/
theorem Watched.frame (h : Watched w s) (same : SameFor w.leaseId s.keys k) (sound : p.Sound w n)
    (self : n = w.holder → s.calls n = some p)
    (claims : p.HasClaimed w.leaseId ↔ ∃ q, s.calls n = some q ∧ q.HasClaimed w.leaseId)
    (lists : p.Lists w.leaseId →
      (∃ q, s.calls n = some q ∧ q.Lists w.leaseId) ∨ s.calls w.holder = some w.acquired)
    (keeps : ∀ q, s.calls n = some q → q.Lists w.leaseId → w.leaseId ∉ s.keys.expiredClaims →
      p.Lists w.leaseId) :
    Watched w ⟨clock, k, Function.update s.calls n (some p)⟩ := by
  have holder : Function.update s.calls n (some p) w.holder = s.calls w.holder := by
    by_cases hn : w.holder = n
    · rw [hn, Function.update_self]
      exact (self hn.symm).symm
    · rw [Function.update_of_ne hn]
  -- Whoever has claimed the lease after the step had claimed it before.
  have claimer : ∀ m q, Function.update s.calls n (some p) m = some q → q.HasClaimed w.leaseId →
      ∃ q', s.calls m = some q' ∧ q'.HasClaimed w.leaseId := by
    intro m q hm hq
    rcases update_some_cases hm with ⟨rfl, rfl⟩ | ⟨-, hm⟩
    · exact claims.mp hq
    · exact ⟨q, hm, hq⟩
  refine ⟨same.leases.trans h.stored, fun m q hm => ?_, fun ha score hs => ?_, ?_⟩
  · rcases update_some_cases hm with ⟨rfl, rfl⟩ | ⟨-, hm⟩
    · exact sound
    · exact h.sound m q hm
  · exact h.entry (holder ▸ ha) score ((same.expiries score).mp hs)
  · obtain ⟨phase, hp⟩ := h.phase
    refine ⟨phase, ?_⟩
    cases phase with
    | unindexed =>
      obtain ⟨ha, unlisted, unseen, count⟩ := hp
      refine ⟨holder.trans ha, fun m q hm hq => ?_, unseen, same.reported.trans count⟩
      rcases update_some_cases hm with ⟨rfl, rfl⟩ | ⟨-, hm⟩
      · rcases lists hq with ⟨q', hq', hl⟩ | acquired
        · exact unlisted m q' hq' hl
        · exact indexing_ne_acquired w (Option.some.inj (ha.symm.trans acquired))
      · exact unlisted m q hm hq
    | waiting =>
      obtain ⟨ha, entry, unclaimed, free, seen, count⟩ := hp
      refine ⟨holder.trans ha, (same.expiries _).mpr entry, fun hc => unclaimed (same.claims.mp hc),
        fun m q hm hq => ?_, fun hseen => ?_, same.reported.trans count⟩
      · obtain ⟨q', hm', hq'⟩ := claimer m q hm hq
        exact free m q' hm' hq'
      · obtain ⟨m, q, hm, hq⟩ := seen hseen
        by_cases hmn : m = n
        · subst hmn
          exact ⟨m, p, Function.update_self .., keeps q hm hq unclaimed⟩
        · exact ⟨m, q, by simpa [hmn] using hm, hq⟩
    | claimed i =>
      obtain ⟨ha, claimed, ⟨q, hi, hq⟩, only, count⟩ := hp
      refine ⟨holder.trans ha, same.claims.mpr claimed, ?_, fun m q hm hq => ?_,
        same.reported.trans count⟩
      · by_cases hin : i = n
        · subst hin
          exact ⟨p, Function.update_self .., claims.mpr ⟨q, hi, hq⟩⟩
        · exact ⟨q, by simpa [hin] using hi, hq⟩
      · obtain ⟨q', hm', hq'⟩ := claimer m q hm hq
        exact only m q' hm' hq'
    | reported =>
      obtain ⟨ha, claimed, free, count⟩ := hp
      refine ⟨holder.trans ha, same.claims.mpr claimed, fun m q hm hq => ?_,
        same.reported.trans count⟩
      obtain ⟨q', hm', hq'⟩ := claimer m q hm hq
      exact free m q' hm' hq'

/-- A step that leaves the call's relation to the watched lease as it is. -/
theorem Watched.idle (h : Watched w s) (same : SameFor w.leaseId s.keys k) (sound : p.Sound w n)
    (self : n = w.holder → s.calls n = some p) (quiet : ¬ p.Lists w.leaseId)
    (was : ∀ q, s.calls n = some q → q.Lists w.leaseId →
      ¬ q.HasClaimed w.leaseId ∧ w.leaseId ∈ s.keys.expiredClaims) :
    Watched w ⟨clock, k, Function.update s.calls n (some p)⟩ := by
  refine h.frame same sound self ⟨fun hp => absurd hp.lists quiet, ?_⟩
    (fun hp => absurd hp quiet) fun q hq hl free => absurd (was q hq hl).2 free
  rintro ⟨q, hq, hc⟩
  exact absurd hc (was q hq hc.lists).1

/-- The index pipeline of the acquire. -/
theorem Watched.index (h : Watched w s) (hn : s.calls w.holder = some w.indexing)
    (leases : k.leases = s.keys.leases)
    (expiries : k.expiries = s.keys.expiries.add w.leaseId w.stored.lease.expiresAt)
    (claims : k.expiredClaims = s.keys.expiredClaims.erase w.leaseId)
    (reported : k.reported = s.keys.reported) :
    Watched w ⟨clock, k, Function.update s.calls w.holder (some w.acquired)⟩ := by
  obtain ⟨phase, hp⟩ := h.phase
  have unindexed : Phase.unindexed.Holds w s := by
    cases phase with
    | unindexed => exact hp
    | waiting | claimed _ | reported =>
      exact absurd (Option.some.inj (hn.symm.trans hp.1)) (indexing_ne_acquired w)
  obtain ⟨-, unlisted, unseen, count⟩ := unindexed
  refine ⟨leases ▸ h.stored, fun m q hm => ?_, fun _ score hs => ?_, .waiting, ?_⟩
  · rcases update_some_cases hm with ⟨rfl, rfl⟩ | ⟨-, hm⟩
    · trivial
    · exact h.sound m q hm
  · dsimp only at hs
    rw [expiries, SortedSet.mem_add] at hs
    rcases hs with ⟨-, rfl⟩ | ⟨ne, -⟩
    · rfl
    · exact absurd rfl ne
  · refine ⟨Function.update_self .., ?_, ?_, fun m q hm hq => ?_, by simp [unseen], ?_⟩
    · dsimp only
      rw [expiries, SortedSet.mem_add]
      exact Or.inl ⟨rfl, rfl⟩
    · dsimp only
      rw [claims]
      exact Finset.notMem_erase _ _
    · rcases update_some_cases hm with ⟨-, rfl⟩ | ⟨-, hm⟩
      · exact hq
      · exact unlisted m q hm hq.lists
    · dsimp only
      rw [reported]
      exact count

theorem Watched.holder_call (h : Watched w s) :
    s.calls w.holder = some w.indexing ∨ s.calls w.holder = some w.acquired := by
  obtain ⟨phase, hp⟩ := h.phase
  cases phase with
  | unindexed => exact Or.inl hp.1
  | waiting | claimed _ | reported => exact Or.inr hp.1

theorem Watched.ne_holder (h : Watched w s) (hn : s.calls n = some p) (hi : p ≠ w.indexing)
    (ha : p ≠ w.acquired) : n ≠ w.holder := by
  rintro rfl
  rcases h.holder_call with hc | hc
  · exact hi (Option.some.inj (hn.symm.trans hc))
  · exact ha (Option.some.inj (hn.symm.trans hc))

/-- A step of a call that is neither the acquire nor a scan of the watched lease. -/
theorem Watched.skip (h : Watched w s) {q : Call} (hn : s.calls n = some q) (hi : q ≠ w.indexing)
    (ha : q ≠ w.acquired) (unlisted : ¬ q.Lists w.leaseId) (same : SameFor w.leaseId s.keys k)
    (sound : p.Sound w n) (quiet : ¬ p.Lists w.leaseId) :
    Watched w ⟨clock, k, Function.update s.calls n (some p)⟩ := by
  refine h.idle same sound (fun self => absurd self (h.ne_holder hn hi ha)) quiet
    fun q' hq' hl => ?_
  rw [hn] at hq'
  exact absurd (Option.some.inj hq' ▸ hl) unlisted

/-- The scan whose `SADD` is the first to add the watched lease. -/
theorem Watched.claim (h : Watched w s) {now : Int} {leaseIds : List String}
    (hn : s.calls n = some (.claimListed now leaseIds)) (mem : w.leaseId ∈ leaseIds)
    (free : w.leaseId ∉ s.keys.expiredClaims) :
    Watched w ⟨clock,
      { s.keys with expiredClaims := s.keys.expiredClaims ∪ leaseIds.toFinset },
      Function.update s.calls n
        (some (.readClaimed now (leaseIds.filter (· ∉ s.keys.expiredClaims))))⟩ := by
  obtain ⟨once, expired⟩ := h.sound n _ hn
  have other : n ≠ w.holder := h.ne_holder hn (by rintro ⟨⟩) (by rintro ⟨⟩)
  have holder : ∀ c, s.calls w.holder = c → Function.update s.calls n
      (some (.readClaimed now (leaseIds.filter (· ∉ s.keys.expiredClaims)))) w.holder = c :=
    fun c hc => (Function.update_of_ne other.symm ..).trans hc
  have waiting : Phase.waiting.Holds w s := by
    obtain ⟨phase, hp⟩ := h.phase
    cases phase with
    | unindexed => exact absurd mem (hp.2.1 n _ hn)
    | waiting => exact hp
    | claimed _ | reported => exact absurd hp.2.1 free
  obtain ⟨ha, -, -, unclaimed, -, count⟩ := waiting
  refine ⟨h.stored, fun m q hm => ?_, fun _ => h.entry ha, .claimed n, ?_⟩
  · rcases update_some_cases hm with ⟨rfl, rfl⟩ | ⟨-, hm⟩
    · refine ⟨(List.filter_sublist.count_le _).trans once, fun hmem => expired ?_⟩
      exact (List.mem_filter.mp hmem).1
    · exact h.sound m q hm
  · refine ⟨holder _ ha, ?_, ⟨_, Function.update_self .., ?_⟩, fun m q hm hq => ?_, count⟩
    · simp [mem]
    · simp [Call.HasClaimed, mem, free]
    · rcases update_some_cases hm with ⟨rfl, -⟩ | ⟨-, hm⟩
      · rfl
      · exact absurd hq (unclaimed m q hm)

/-- The cleanup of the scan that has claimed the watched lease reports it. -/
theorem Watched.report (h : Watched w s) {now : Int}
    {payloads : List (String × Option StoredLease)} (hn : s.calls n = some (.cleanUp now payloads))
    (mem : w.leaseId ∈ payloads.map Prod.fst) (expired : List TaskLease) :
    Watched w ⟨clock, payloads.foldl (Call.cleanOne now) s.keys,
      Function.update s.calls n (some (.scanDone expired))⟩ := by
  obtain ⟨once, payload⟩ := h.sound n _ hn
  have other : n ≠ w.holder := h.ne_holder hn (by rintro ⟨⟩) (by rintro ⟨⟩)
  have claimed : Phase.claimed n |>.Holds w s := by
    obtain ⟨phase, hp⟩ := h.phase
    cases phase with
    | unindexed => exact absurd mem (hp.2.1 n _ hn)
    | waiting => exact absurd mem (hp.2.2.2.1 n _ hn)
    | claimed i =>
      have hin : n = i := hp.2.2.2.1 n _ hn mem
      exact hin ▸ hp
    | reported => exact absurd mem (hp.2.2.1 n _ hn)
  obtain ⟨ha, inClaims, -, only, count⟩ := claimed
  have found : (w.leaseId, some w.stored) ∈ payloads ∧ w.stored.lease.expiresAt ≤ now := by
    obtain ⟨⟨id, q⟩, hq, rfl⟩ := List.mem_map.mp mem
    obtain ⟨rfl, le⟩ := payload q hq
    exact ⟨hq, le⟩
  obtain ⟨leases, entries, claims, reported⟩ :=
    foldl_cleanOne_reported now payloads s.keys once found.1 found.2
  refine ⟨leases.trans h.stored, fun m q hm => ?_, fun _ score hs => absurd hs (entries score),
    .reported, (Function.update_of_ne other.symm ..).trans ha, claims.mpr inClaims,
    fun m q hm hq => ?_, ?_⟩
  · rcases update_some_cases hm with ⟨rfl, rfl⟩ | ⟨-, hm⟩
    · trivial
    · exact h.sound m q hm
  · rcases update_some_cases hm with ⟨-, rfl⟩ | ⟨hmn, hm⟩
    · exact hq
    · exact hmn (only m q hm hq)
  · rw [reported, count]

theorem Call.await_failed {reply : Reply} (failed : reply ≠ .ok) (clock : Int) (k : LeaseKeys)
    (p : Call) :
    (p.await clock k reply).2 = k ∧ ((p.await clock k reply).1 = p ∨
      (p.await clock k reply).1 = .raised ∧ ∀ lease g, p ≠ .acquired lease g) := by
  cases reply with
  | ok => exact absurd rfl failed
  | exception => cases p <;> simp [Call.await]
  | cancelled => cases p <;> simp [Call.await]

theorem Watched.failed (h : Watched w s) {reply : Reply} (failed : reply ≠ .ok)
    (abandoned : Abandoned w s (.await n reply)) (timely : Timely w s (.await n reply))
    (hn : s.calls n = some p) :
    Watched w { s with
      keys := (p.await s.clock s.keys reply).2
      calls := Function.update s.calls n (some (p.await s.clock s.keys reply).1) } := by
  have unlisted : ¬ p.Lists w.leaseId := fun hl => failed (timely.succeeds n p reply rfl hn hl)
  have was : ∀ q, s.calls n = some q → ¬ q.Lists w.leaseId := by
    intro q hq hl
    exact unlisted (Option.some.inj (hn.symm.trans hq) ▸ hl)
  obtain ⟨same, stays | ⟨raised, other⟩⟩ := Call.await_failed failed s.clock s.keys p
  · rw [same, stays]
    exact h.idle (.refl _ _) (h.sound n p hn) (fun _ => hn) unlisted
      fun q hq hl => absurd hl (was q hq)
  · rw [same, raised]
    refine h.idle (.refl _ _) trivial (fun self => ?_) (by simp [Call.Lists])
      fun q hq hl => absurd hl (was q hq)
    subst self
    rcases h.holder_call with hc | hc
    · exact absurd (abandoned.indexed reply rfl hc) failed
    · exact absurd (Option.some.inj (hn.symm.trans hc)) (other _ _)

/-- The commands of `acquire`, `heartbeat`, `release` and of the giving back of a claim. -/
theorem Watched.await_other (h : Watched w s) (abandoned : Abandoned w s (.await n .ok))
    (timely : Timely w s (.await n .ok)) (hn : s.calls n = some p)
    (noScan : ∀ now limit leaseIds payloads, p ≠ .listExpired now limit ∧
      p ≠ .claimListed now leaseIds ∧ p ≠ .readClaimed now leaseIds ∧ p ≠ .cleanUp now payloads) :
    Watched w { s with
      keys := (p.await s.clock s.keys .ok).2
      calls := Function.update s.calls n (some (p.await s.clock s.keys .ok).1) } := by
  have unlisted : ¬ p.Lists w.leaseId := by
    intro hl
    cases p <;> simp_all [Call.Lists]
  cases p with
  | setLease lease ttl =>
    simp only [Call.await]
    split
    · exact h.skip hn (by rintro ⟨⟩) (by rintro ⟨⟩) unlisted (.refl _ _) trivial
        (by simp [Call.Lists])
    · next absent =>
      have ne : w.leaseId ≠ lease.leaseId := fun same =>
        abandoned.unacquired n lease ttl rfl hn same.symm (by simpa using absent)
      refine h.skip hn (by rintro ⟨⟩) (by rintro ⟨⟩) unlisted ⟨?_, fun _ => Iff.rfl, Iff.rfl, rfl⟩
        (fun same => absurd same.symm ne) (by simp [Call.Lists])
      exact Function.update_of_ne ne ..
  | indexLease lease g =>
    by_cases mine : lease.leaseId = w.leaseId
    · obtain ⟨rfl, hw⟩ := h.sound n _ hn mine
      have hl : lease = w.stored.lease := (Call.indexLease.inj hw).1
      have hg : g = w.stored.generation := (Call.indexLease.inj hw).2
      subst hl hg
      exact h.index hn rfl rfl rfl rfl
    · refine h.skip hn (fun hw => mine (by cases hw; rfl)) (by rintro ⟨⟩) unlisted
        ⟨rfl, ?_, ?_, rfl⟩ trivial (by simp [Call.await, Call.Lists])
      · intro score
        simp [Call.await, Ne.symm mine]
      · simp [Call.await, Ne.symm mine]
  | writeHeartbeat leaseId g read updated ttl =>
    have ne : w.leaseId ≠ leaseId := fun same =>
      abandoned.unwritten n _ read.generation g rfl hn (by rw [same]; rfl)
    refine h.skip hn (by rintro ⟨⟩) (by rintro ⟨⟩) unlisted
      ⟨Function.update_of_ne ne .., fun score => ?_, Iff.rfl, rfl⟩ trivial
      (by simp [Call.await, Call.Lists])
    simp [Call.await, ne]
  | writeRelease leaseId ownerId g read =>
    have ne : w.leaseId ≠ leaseId := fun same =>
      abandoned.unwritten n _ read.generation g rfl hn (by rw [same]; rfl)
    refine h.skip hn (by rintro ⟨⟩) (by rintro ⟨⟩) unlisted
      ⟨Function.update_of_ne ne .., fun score => ?_, ?_, rfl⟩ trivial
      (by simp [Call.await, Call.Lists])
    · simp [Call.await, ne]
    · simp [Call.await, ne]
  | unclaim leaseId expiry =>
    have ne : w.leaseId ≠ leaseId := fun same => timely.kept n expiry rfl (by rw [same]; exact hn)
    refine h.skip hn (by rintro ⟨⟩) (by rintro ⟨⟩) unlisted ⟨rfl, fun score => ?_, ?_, rfl⟩ trivial
      (by simp [Call.await, Call.Lists])
    · cases expiry <;> simp [Call.await, ne]
    · simp [Call.await, ne]
  | getForHeartbeat leaseId ownerId g expiresAt =>
    simp only [Call.await]
    repeat' split
    all_goals
      exact h.skip hn (by rintro ⟨⟩) (by rintro ⟨⟩) unlisted (.refl _ _) trivial
        (by simp [Call.Lists])
  | getForRelease leaseId ownerId g =>
    simp only [Call.await]
    repeat' split
    all_goals
      exact h.skip hn (by rintro ⟨⟩) (by rintro ⟨⟩) unlisted (.refl _ _) trivial
        (by simp [Call.Lists])
  | getForRetry leaseId retry =>
    simp only [Call.await]
    repeat' split
    all_goals
      exact h.skip hn (by rintro ⟨⟩) (by rintro ⟨⟩) unlisted (.refl _ _) trivial
        (by simp [Call.Lists])
  | listExpired now limit => exact absurd rfl (noScan now limit [] []).1
  | claimListed now leaseIds => exact absurd rfl (noScan now 0 leaseIds []).2.1
  | readClaimed now claimedIds => exact absurd rfl (noScan now 0 claimedIds []).2.2.1
  | cleanUp now payloads => exact absurd rfl (noScan now 0 [] payloads).2.2.2
  | _ =>
    refine h.idle (.refl _ _) trivial (fun _ => hn) (by simp [Call.await, Call.Lists])
      fun q hq hl => ?_
    rw [hn] at hq
    exact absurd (Option.some.inj hq ▸ hl) unlisted

theorem Watched.await_listExpired (h : Watched w s) {now limit : Int}
    (timely : Timely w s (.await n .ok)) (hn : s.calls n = some (.listExpired now limit)) :
    Watched w { s with
      keys := (Call.await s.clock s.keys (.listExpired now limit) .ok).2
      calls := Function.update s.calls n
        (some (Call.await s.clock s.keys (.listExpired now limit) .ok).1) } := by
  have other : n ≠ w.holder := h.ne_holder hn (by rintro ⟨⟩) (by rintro ⟨⟩)
  have unlisting : ∀ q, s.calls n = some q → ¬ q.Lists w.leaseId := by
    intro q hq hl
    rw [hn] at hq
    exact (Option.some.inj hq ▸ hl : Call.Lists _ (.listExpired now limit))
  simp only [Call.await]
  split
  · exact h.skip hn (by rintro ⟨⟩) (by rintro ⟨⟩) id (.refl _ _) trivial (by simp [Call.Lists])
  · next leaseIds nonempty =>
    have unlisted := timely.unlisted n now limit rfl hn
    have acquired : w.leaseId ∈ s.keys.expiries.rangeByScore now limit →
        s.calls w.holder = some w.acquired := by
      intro mem
      rcases h.holder_call with hc | hc
      · exact absurd mem (unlisted hc)
      · exact hc
    refine h.frame (.refl _ _) ⟨?_, fun mem => ?_⟩ (fun self => absurd self other) ?_
      (fun mem => Or.inr (acquired mem)) fun q hq hl => absurd hl (unlisting q hq)
    · exact List.nodup_iff_count_le_one.mp (SortedSet.nodup_rangeByScore _ _ _) _
    · obtain ⟨score, hs, le⟩ := SortedSet.exists_score_of_mem mem
      have := h.entry (acquired mem) score hs
      omega
    · refine ⟨fun hc => absurd hc (by simp [Call.HasClaimed]), ?_⟩
      rintro ⟨q, hq, hc⟩
      exact absurd hc.lists (unlisting q hq)

theorem Watched.await_claimListed (h : Watched w s) {now : Int} {leaseIds : List String}
    (hn : s.calls n = some (.claimListed now leaseIds)) :
    Watched w { s with
      keys := (Call.await s.clock s.keys (.claimListed now leaseIds) .ok).2
      calls := Function.update s.calls n
        (some (Call.await s.clock s.keys (.claimListed now leaseIds) .ok).1) } := by
  have other : n ≠ w.holder := h.ne_holder hn (by rintro ⟨⟩) (by rintro ⟨⟩)
  by_cases first : w.leaseId ∈ leaseIds ∧ w.leaseId ∉ s.keys.expiredClaims
  · have nonempty : leaseIds.filter (· ∉ s.keys.expiredClaims) ≠ [] := by
      refine List.ne_nil_of_mem (a := w.leaseId) ?_
      simpa using first
    have hp : (Call.await s.clock s.keys (.claimListed now leaseIds) .ok).1 =
        .readClaimed now (leaseIds.filter (· ∉ s.keys.expiredClaims)) := by
      simp only [Call.await]
    rw [hp]
    exact h.claim hn first.1 first.2
  · have gone : w.leaseId ∉ leaseIds.filter (· ∉ s.keys.expiredClaims) := by
      simpa using first
    have unclaimed : ∀ q, s.calls n = some q → q.Lists w.leaseId →
        ¬ q.HasClaimed w.leaseId ∧ w.leaseId ∈ s.keys.expiredClaims := by
      intro q hq hl
      rw [hn] at hq
      cases Option.some.inj hq
      exact ⟨fun hc => hc, by simpa using fun free => first ⟨hl, free⟩⟩
    have same : SameFor w.leaseId s.keys
        (Call.await s.clock s.keys (.claimListed now leaseIds) .ok).2 := by
      refine ⟨rfl, fun _ => Iff.rfl, ?_, rfl⟩
      simp only [Call.await, Finset.mem_union, List.mem_toFinset]
      tauto
    simp only [Call.await] at same ⊢
    split
    · exact h.idle same trivial (fun self => absurd self other) (by simp [Call.Lists]) unclaimed
    · have none := List.count_eq_zero_of_not_mem gone
      exact h.idle same ⟨by omega, fun mem => absurd mem gone⟩ (fun self => absurd self other) gone
        unclaimed

theorem Watched.await_readClaimed (h : Watched w s) {now : Int} {claimedIds : List String}
    (timely : Timely w s (.await n .ok)) (hn : s.calls n = some (.readClaimed now claimedIds)) :
    Watched w { s with
      keys := (Call.await s.clock s.keys (.readClaimed now claimedIds) .ok).2
      calls := Function.update s.calls n
        (some (Call.await s.clock s.keys (.readClaimed now claimedIds) .ok).1) } := by
  have other : n ≠ w.holder := h.ne_holder hn (by rintro ⟨⟩) (by rintro ⟨⟩)
  obtain ⟨once, expired⟩ := h.sound n _ hn
  have ids : (claimedIds.map fun id => (id, s.keys.get s.clock id)).map Prod.fst = claimedIds := by
    simp [Function.comp_def]
  refine h.frame (.refl _ _) ⟨?_, fun payload mem => ?_⟩ (fun self => absurd self other) ?_ ?_
    fun q hq hl _ => ?_
  · rw [ids]
    exact once
  · obtain ⟨id, hid, hp⟩ := List.mem_map.mp mem
    obtain ⟨rfl, rfl⟩ := Prod.mk.inj hp
    have present := timely.present n now claimedIds rfl hn hid
    obtain ⟨stored, found⟩ := Option.isSome_iff_exists.mp present
    have same := (Option.filter_eq_some_iff.mp found).1
    rw [h.stored] at same
    exact ⟨by rw [found, same], expired hid⟩
  · simp only [Call.await, Call.HasClaimed, ids]
    refine ⟨fun mem => ⟨_, hn, mem⟩, ?_⟩
    rintro ⟨q, hq, hc⟩
    rw [hn] at hq
    exact (Option.some.inj hq ▸ hc : Call.HasClaimed _ (.readClaimed now claimedIds))
  · simp only [Call.await, Call.Lists, ids]
    exact fun mem => Or.inl ⟨_, hn, mem⟩
  · rw [hn] at hq
    cases Option.some.inj hq
    simpa only [Call.await, Call.Lists, ids] using hl

theorem Watched.await_cleanUp (h : Watched w s) {now : Int}
    {payloads : List (String × Option StoredLease)}
    (hn : s.calls n = some (.cleanUp now payloads)) :
    Watched w { s with
      keys := (Call.await s.clock s.keys (.cleanUp now payloads) .ok).2
      calls := Function.update s.calls n
        (some (Call.await s.clock s.keys (.cleanUp now payloads) .ok).1) } := by
  by_cases mem : w.leaseId ∈ payloads.map Prod.fst
  · exact h.report hn mem _
  · exact h.skip hn (by rintro ⟨⟩) (by rintro ⟨⟩) mem
      (sameFor_foldl_cleanOne now payloads s.keys mem) trivial (by simp [Call.await, Call.Lists])

theorem Watched.begin (h : Watched w s) {t : LeaseStore} (hs : s.begin n p = some t)
    (sound : p.Sound w n) (quiet : ¬ p.Lists w.leaseId) : Watched w t := by
  obtain ⟨new, rfl⟩ := LeaseStore.begin_eq_some hs
  refine h.idle (.refl _ _) sound (fun self => ?_) quiet (by simp [new])
  subst self
  rcases h.holder_call with hc | hc <;> simp [new] at hc

theorem Watched.next (h : Watched w s) {t : LeaseStore} {l : LeaseStep}
    (abandoned : Abandoned w s l) (timely : Timely w s l) (hs : leaseStore.next s l = some t) :
    Watched w t := by
  cases l with
  | acquire n lease => exact h.begin hs trivial (by simp [Call.Lists])
  | heartbeat n holder expiresAt =>
    obtain ⟨_, -, hs⟩ := Option.bind_eq_some_iff.mp hs
    exact h.begin hs trivial (by simp [Call.Lists])
  | release n holder =>
    obtain ⟨_, -, hs⟩ := Option.bind_eq_some_iff.mp hs
    exact h.begin hs trivial (by simp [Call.Lists])
  | claimExpired n now limit => exact h.begin hs trivial (by simp [Call.Lists])
  | releaseExpiredClaim n leaseId retry => exact h.begin hs trivial (by simp [Call.Lists])
  | await n reply =>
    obtain ⟨p, hn, rfl⟩ := Option.map_eq_some_iff.mp hs
    by_cases ok : reply = .ok
    · subst ok
      cases p with
      | listExpired now limit => exact h.await_listExpired timely hn
      | claimListed now leaseIds => exact h.await_claimListed hn
      | readClaimed now claimedIds => exact h.await_readClaimed timely hn
      | cleanUp now payloads => exact h.await_cleanUp hn
      | _ => exact h.await_other abandoned timely hn (by simp)
    · exact h.failed ok abandoned timely hn
  | tick microseconds =>
    cases hs
    exact ⟨h.stored, h.sound, h.entry, h.phase⟩

end Step

/-! ## Reported exactly once -/

/-- From the moment a scan lists what is due, a lease that still waits is listed. -/
theorem Watched.see {w : Watch} {s : LeaseStore} (h : Watched w s)
    (ha : s.calls w.holder = some w.acquired)
    (lister : (w.leaseId, w.stored.lease.expiresAt) ∈ s.keys.expiries.entries →
      ∃ n p, s.calls n = some p ∧ p.Lists w.leaseId) :
    Watched { w with seen := true } s := by
  refine ⟨h.stored, fun n p hn => ?_, h.entry, ?_⟩
  · have := h.sound n p hn
    cases p <;> exact this
  · obtain ⟨phase, hp⟩ := h.phase
    refine ⟨phase, ?_⟩
    cases phase with
    | unindexed =>
      exact absurd (Option.some.inj (hp.1.symm.trans ha)) (indexing_ne_acquired w)
    | waiting =>
      obtain ⟨_, entry, free, unclaimed, -, count⟩ := hp
      exact ⟨ha, entry, free, unclaimed, fun _ => lister entry, count⟩
    | claimed n => exact hp
    | reported => exact hp

theorem Watched.count_le {w : Watch} {s : LeaseStore} (h : Watched w s) :
    s.keys.reported.count w.leaseId ≤ w.reports + 1 := by
  obtain ⟨phase, hp⟩ := h.phase
  cases phase with
  | unindexed =>
    obtain ⟨-, -, -, count⟩ := hp
    omega
  | waiting =>
    obtain ⟨-, -, -, -, -, count⟩ := hp
    omega
  | claimed n =>
    obtain ⟨-, -, -, -, count⟩ := hp
    omega
  | reported =>
    obtain ⟨-, -, -, count⟩ := hp
    omega

/-- A lease that has been seen and that no scan is busy with is reported. -/
theorem Watched.count_eq {w : Watch} {s : LeaseStore} (h : Watched w s) (seen : w.seen = true)
    (done : ∀ n p, s.calls n = some p → ¬ p.Lists w.leaseId) :
    s.keys.reported.count w.leaseId = w.reports + 1 := by
  obtain ⟨phase, hp⟩ := h.phase
  cases phase with
  | unindexed =>
    obtain ⟨-, -, unseen, -⟩ := hp
    simp [seen] at unseen
  | waiting =>
    obtain ⟨-, -, -, -, lister, -⟩ := hp
    obtain ⟨n, p, hn, hl⟩ := lister seen
    exact absurd hl (done n p hn)
  | claimed n =>
    obtain ⟨-, -, ⟨p, hn, hc⟩, -⟩ := hp
    exact absurd hc.lists (done n p hn)
  | reported => exact hp.2.2.2

/-- The watch that begins with the `SET` of the acquire `n`. -/
def LeaseStore.watch (s : LeaseStore) (n : Nat) (lease : TaskLease) (ttl : Int) : Watch where
  holder := n
  stored := ⟨lease, deadlineAfter s.clock ttl, s.keys.acquires lease.leaseId + 1⟩
  reports := s.keys.reported.count lease.leaseId
  seen := false

theorem Watched.initial {s t : LeaseStore} {n : Nat} {lease : TaskLease} {ttl : Int}
    (hn : s.calls n = some (.setLease lease ttl))
    (free : s.keys.get s.clock lease.leaseId = none)
    (clear : ∀ m p, s.calls m = some p → ¬ p.Between lease.leaseId)
    (hs : leaseStore.next s (.await n .ok) = some t) : Watched (s.watch n lease ttl) t := by
  have step : t = { s with
      keys := { s.keys with
        leases := Function.update s.keys.leases lease.leaseId
          (some (s.watch n lease ttl).stored)
        acquires := Function.update s.keys.acquires lease.leaseId
          (s.keys.acquires lease.leaseId + 1) }
      calls := Function.update s.calls n (some (s.watch n lease ttl).indexing) } := by
    simpa [leaseStore, hn, Call.await, free, LeaseStore.watch, Watch.indexing] using hs.symm
  subst step
  have unlisted : ∀ m p, s.calls m = some p → ¬ p.Lists lease.leaseId := by
    intro m p hm hl
    exact clear m p hm (Or.inl hl)
  refine ⟨Function.update_self .., fun m p hm => ?_, fun ha => ?_, .unindexed,
    Function.update_self .., fun m p hm hl => ?_, rfl, rfl⟩
  · rcases update_some_cases hm with ⟨rfl, rfl⟩ | ⟨-, hm⟩
    · exact fun _ => ⟨rfl, rfl⟩
    · have quiet := unlisted m p hm
      cases p with
      | indexLease lease' g =>
        exact fun same => absurd (Or.inr (Or.inl ⟨lease', g, rfl, same⟩)) (clear m _ hm)
      | claimListed now leaseIds =>
        have none := List.count_eq_zero_of_not_mem quiet
        exact ⟨none.le.trans zero_le_one, fun mem => absurd mem quiet⟩
      | readClaimed now claimedIds =>
        have none := List.count_eq_zero_of_not_mem quiet
        exact ⟨none.le.trans zero_le_one, fun mem => absurd mem quiet⟩
      | cleanUp now payloads =>
        have none := List.count_eq_zero_of_not_mem quiet
        exact ⟨none.le.trans zero_le_one, fun payload mem =>
          absurd (List.mem_map_of_mem mem) quiet⟩
      | _ => trivial
  · have hc := (Function.update_self (β := fun _ => Option Call) n
      (some (s.watch n lease ttl).indexing) s.calls).symm.trans ha
    exact absurd (Option.some.inj hc) (indexing_ne_acquired _)
  · rcases update_some_cases hm with ⟨-, rfl⟩ | ⟨-, hm⟩
    · exact hl
    · exact unlisted m p hm hl

/-- The lease is reported at most once; and once, when a scan that is due to list it has done so
after the acquire returned and no scan is busy with it any more. -/
def ReportedOnce (w : Watch) (s : LeaseStore) (ls : List LeaseStep) (t : LeaseStore) : Prop :=
  t.keys.reported.count w.leaseId ≤ w.reports + 1 ∧
  ∀ before n after u now limit, ls = before ++ .await n .ok :: after →
    leaseStore.exec s before = some u → u.calls w.holder = some w.acquired →
    u.calls n = some (.listExpired now limit) → w.stored.lease.expiresAt ≤ now →
    ((u.keys.expiries.due now).length : Int) ≤ limit →
    (∀ m p, t.calls m = some p → ¬ p.Lists w.leaseId) →
      t.keys.reported.count w.leaseId = w.reports + 1

theorem Watched.listed {w : Watch} {s t : LeaseStore} {n : Nat} {now limit : Int}
    (hn : s.calls n = some (.listExpired now limit)) (due : w.stored.lease.expiresAt ≤ now)
    (enough : ((s.keys.expiries.due now).length : Int) ≤ limit)
    (hs : leaseStore.next s (.await n .ok) = some t)
    (entry : (w.leaseId, w.stored.lease.expiresAt) ∈ t.keys.expiries.entries) :
    ∃ m p, t.calls m = some p ∧ p.Lists w.leaseId := by
  obtain ⟨p, hp, rfl⟩ := Option.map_eq_some_iff.mp hs
  rw [hn] at hp
  cases hp
  simp only [Call.await] at entry ⊢
  have old : (w.leaseId, w.stored.lease.expiresAt) ∈ s.keys.expiries.entries := by
    split at entry <;> exact entry
  have mem := SortedSet.mem_rangeByScore enough old due
  refine ⟨n, .claimListed now (s.keys.expiries.rangeByScore now limit), ?_, mem⟩
  split
  · next empty => simp [empty] at mem
  · simp

/-- A watched lease is reported once in every run that is timely for it. -/
theorem abandoned_lease_is_reported_once (s t u : LeaseStore) (n : Nat) (lease : TaskLease)
    (ttl : Int) (ls : List LeaseStep) (hn : s.calls n = some (.setLease lease ttl))
    (free : s.keys.get s.clock lease.leaseId = none)
    (clear : ∀ m p, s.calls m = some p → ¬ p.Between lease.leaseId)
    (set : leaseStore.next s (.await n .ok) = some t) (run : leaseStore.exec t ls = some u)
    (along : leaseStore.Along (fun v l => Abandoned (s.watch n lease ttl) v l ∧
      Timely (s.watch n lease ttl) v l) t ls) :
    ReportedOnce (s.watch n lease ttl) t ls u := by
  have start := Watched.initial hn free clear set
  have step : ∀ v l v', Watched (s.watch n lease ttl) v →
      Abandoned (s.watch n lease ttl) v l ∧ Timely (s.watch n lease ttl) v l →
      leaseStore.next v l = some v' → Watched (s.watch n lease ttl) v' :=
    fun _ _ _ h ok hs => h.next ok.1 ok.2 hs
  refine ⟨(Machine.invariant_along step start along run).count_le, ?_⟩
  intro before k after v now limit split runBefore acquired scan due enough done
  subst split
  obtain ⟨v', hv', runAfter⟩ : ∃ v', leaseStore.next v (.await k .ok) = some v' ∧
      leaseStore.exec v' after = some u := by
    rw [Machine.exec_append, runBefore] at run
    exact Option.bind_eq_some_iff.mp run
  obtain ⟨alongBefore, alongAfter⟩ := along.of_append runBefore
  have watched : Watched (s.watch n lease ttl) v :=
    Machine.invariant_along step start alongBefore runBefore
  have next : Watched (s.watch n lease ttl) v' := step _ _ _ watched alongAfter.1 hv'
  have other : k ≠ n := by
    rintro rfl
    cases scan.symm.trans acquired
  have holder : v'.calls n = some (s.watch n lease ttl).acquired := by
    obtain ⟨p, -, rfl⟩ := Option.map_eq_some_iff.mp hv'
    exact (Function.update_of_ne other.symm ..).trans acquired
  have seen := next.see holder (Watched.listed scan due enough hv')
  refine (Machine.invariant_along ?_ seen (alongAfter.2 v' hv') runAfter).count_eq rfl done
  intro v l v' h ok hs
  exact h.next ⟨ok.1.indexed, ok.1.unwritten, ok.1.unacquired⟩
    ⟨ok.2.succeeds, ok.2.present, ok.2.unlisted, ok.2.kept⟩ hs

/-! ## Two runs -/

theorem Abandoned.of_call {w : Watch} {s : LeaseStore} {n : Nat} {p : Call}
    (hn : s.calls n = some p) (unwritten : p.pendingWrite = none)
    (unset : ∀ lease ttl, p ≠ .setLease lease ttl) : Abandoned w s (.await n .ok) := by
  refine ⟨fun reply hl _ => ?_, fun m q read g hl hm hw => ?_, fun m lease ttl hl hm => ?_⟩
  · cases hl
    rfl
  · cases hl
    cases hn.symm.trans hm
    rw [unwritten] at hw
    cases hw
  · cases hl
    exact absurd (Option.some.inj (hn.symm.trans hm)) (unset lease ttl)

theorem Abandoned.of_label {w : Watch} {s : LeaseStore} {l : LeaseStep}
    (h : ∀ n reply, l ≠ .await n reply) : Abandoned w s l :=
  ⟨fun _ hl => absurd hl (h _ _), fun _ _ _ _ hl => absurd hl (h _ _),
    fun _ _ _ hl => absurd hl (h _ _)⟩

theorem Timely.of_call {w : Watch} {s : LeaseStore} {n : Nat} {p : Call} (hn : s.calls n = some p)
    (present : (∃ now ids, p = .readClaimed now ids) → (s.keys.get s.clock w.leaseId).isSome)
    (indexed : s.calls w.holder ≠ some w.indexing ∨ ∀ now limit, p ≠ .listExpired now limit)
    (kept : ∀ expiry, p ≠ .unclaim w.leaseId expiry) : Timely w s (.await n .ok) := by
  refine ⟨fun m q reply hl _ _ => ?_, fun m now ids hl hm _ => ?_, fun m now limit hl hm hi => ?_,
    fun m expiry hl hm => ?_⟩
  · cases hl
    rfl
  · cases hl
    exact present ⟨now, ids, Option.some.inj (hn.symm.trans hm)⟩
  · cases hl
    rcases indexed with ne | ne
    · exact absurd hi ne
    · exact absurd (Option.some.inj (hn.symm.trans hm)) (ne now limit)
  · cases hl
    exact absurd (Option.some.inj (hn.symm.trans hm)) (kept expiry)

theorem Timely.of_label {w : Watch} {s : LeaseStore} {l : LeaseStep}
    (h : ∀ n reply, l ≠ .await n reply) : Timely w s l :=
  ⟨fun _ _ _ hl => absurd hl (h _ _), fun _ _ _ hl => absurd hl (h _ _),
    fun _ _ _ hl => absurd hl (h _ _), fun _ _ hl => absurd hl (h _ _)⟩

/-- A lease of half a second: its key lives for one. -/
def shortLease : TaskLease := ⟨"t", "t", "w", "worker", 0, 0, 500000, 0, .observeOnly⟩

def acquiring (lease : TaskLease) : LeaseStore where
  clock := 0
  keys := .init
  calls := Function.update (fun _ => none) 0 (some (.setLease lease (ttlSeconds lease.expiresAt 0)))

/-- The acquire returns, time passes and one scan runs. -/
def scanAfter (microseconds : Nat) : List LeaseStep :=
  [.await 0 .ok, .tick microseconds, .claimExpired 1 none 100, .await 1 .ok, .await 1 .ok,
    .await 1 .ok, .await 1 .ok]

theorem shortLease_is_reported_once :
    ∃ t u, leaseStore.next (acquiring shortLease) (.await 0 .ok) = some t ∧
      leaseStore.exec t (scanAfter 600000) = some u ∧
      ReportedOnce ((acquiring shortLease).watch 0 shortLease 1) t (scanAfter 600000) u ∧
      u.keys.reported = ["t"] := by
  refine ⟨_, _, rfl, rfl, ?_, rfl⟩
  refine abandoned_lease_is_reported_once (acquiring shortLease) _ _ 0 shortLease 1
    (scanAfter 600000) rfl rfl ?_ rfl rfl ?_
  · intro m p hm hb
    rcases m with _ | m
    · cases hm
      simp [Call.Between, Call.Lists, Call.pendingWrite] at hb
    · cases hm
  · refine .cons ⟨.of_call rfl rfl ?_, .of_call rfl ?_ (Or.inr ?_) ?_⟩ rfl <|
      .cons ⟨.of_label ?_, .of_label ?_⟩ rfl <| .cons ⟨.of_label ?_, .of_label ?_⟩ rfl <|
      .cons ⟨.of_call rfl rfl ?_, .of_call rfl ?_ (Or.inl ?_) ?_⟩ rfl <|
      .cons ⟨.of_call rfl rfl ?_, .of_call rfl ?_ (Or.inr ?_) ?_⟩ rfl <|
      .cons ⟨.of_call rfl rfl ?_, .of_call rfl (fun _ => rfl) (Or.inr ?_) ?_⟩ rfl <|
      .cons ⟨.of_call rfl rfl ?_, .of_call rfl ?_ (Or.inr ?_) ?_⟩ rfl trivial
    all_goals
      first
      | rintro _ _ ⟨⟩
      | rintro _ ⟨⟩
      | rintro ⟨_, _, ⟨⟩⟩

/-- A lease of a minute is gone a millisecond after it has expired, and the scan that claims it then
finds no payload: the lease is never reported. -/
theorem minuteLease_is_never_reported :
    ¬ ∀ (s t u : LeaseStore) (n : Nat) (lease : TaskLease) (ttl : Int) (ls : List LeaseStep),
      (∃ before, leaseStore.exec LeaseStore.init before = some s) →
      s.calls n = some (.setLease lease ttl) → s.keys.get s.clock lease.leaseId = none →
      leaseStore.next s (.await n .ok) = some t → leaseStore.exec t ls = some u →
      leaseStore.Along (Abandoned (s.watch n lease ttl)) t ls →
        ReportedOnce (s.watch n lease ttl) t ls u := by
  intro h
  have once := h (acquiring (minuteLease 0 "w")) _ _ 0 (minuteLease 0 "w") 60 (scanAfter 60001000)
    ⟨[.acquire 0 (minuteLease 0 "w")], rfl⟩ rfl rfl rfl rfl ?_
  · have count := once.2 [.await 0 .ok, .tick 60001000, .claimExpired 1 none 100] 1
      [.await 1 .ok, .await 1 .ok, .await 1 .ok] _ 60001000 100 rfl rfl rfl rfl (by decide)
      (by decide) ?_
    · exact absurd count (by decide)
    · rintro (_ | _ | m) p hm hl <;> cases hm <;> cases hl
  · refine .cons (.of_call rfl rfl ?_) rfl <| .cons (.of_label ?_) rfl <|
      .cons (.of_label ?_) rfl <| .cons (.of_call rfl rfl ?_) rfl <|
      .cons (.of_call rfl rfl ?_) rfl <| .cons (.of_call rfl rfl ?_) rfl <|
      .cons (.of_call rfl rfl ?_) rfl trivial
    all_goals
      rintro _ _ ⟨⟩

end Relayna.Storage.Leases
