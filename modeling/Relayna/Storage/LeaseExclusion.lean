import Relayna.Storage.TaskLease

/-!
# Who may write a lease key

`heartbeat` and `release` read the key, compare the owner and write in a second round trip. The
write is not conditional, so it hits whatever record is there by then. It stays within its own
acquire when no acquire of the lease id succeeds between the two, and when the owner id read is
not one that a later acquire uses as well.
-/
namespace Relayna.Storage.Leases

open Transition

/-- A heartbeat or release that has passed its ownership check: the lease id, the generation of
the record it has read and the generation it acts for. -/
def Call.pendingWrite : Call → Option (String × Nat × Nat)
  | .writeHeartbeat leaseId generation read _ _ => some (leaseId, read.generation, generation)
  | .writeRelease leaseId _ generation read => some (leaseId, read.generation, generation)
  | _ => none

/-- A heartbeat or release about to read: the lease id, its owner id and the generation. -/
def Call.pendingCheck : Call → Option (String × String × Nat)
  | .getForHeartbeat leaseId ownerId generation _ => some (leaseId, ownerId, generation)
  | .getForRelease leaseId ownerId generation => some (leaseId, ownerId, generation)
  | _ => none

/-- The step does not write over, or delete, the record of a later acquire. -/
def Exclusive (s : LeaseStore) (l : LeaseStep) : Prop :=
  ∀ n p leaseId read generation, l = .await n .ok → s.calls n = some p →
    p.pendingWrite = some (leaseId, read, generation) →
      ∀ stored, s.keys.get s.clock leaseId = some stored → stored.generation ≤ generation

/-- A check that finds its own owner id finds no later acquire's record, and an acquire succeeds
only while no heartbeat or release of its lease id is between its check and its write. -/
structure Guarded (s : LeaseStore) (l : LeaseStep) : Prop where
  check : ∀ n p leaseId ownerId generation stored, l = .await n .ok → s.calls n = some p →
    p.pendingCheck = some (leaseId, ownerId, generation) →
      s.keys.get s.clock leaseId = some stored → stored.lease.ownerId = ownerId →
        stored.generation ≤ generation
  acquire : ∀ n lease ttl, l = .await n .ok → s.calls n = some (.setLease lease ttl) →
    s.keys.get s.clock lease.leaseId = none →
      ∀ m p leaseId read generation, s.calls m = some p →
        p.pendingWrite = some (leaseId, read, generation) → leaseId ≠ lease.leaseId

/-- Every stored record and every pending write belongs to the latest acquire of its lease id. -/
structure ExclusionInv (s : LeaseStore) : Prop where
  latest : ∀ leaseId stored, s.keys.leases leaseId = some stored →
    stored.generation = s.keys.acquires leaseId
  pending : ∀ n p leaseId read generation, s.calls n = some p →
    p.pendingWrite = some (leaseId, read, generation) →
      read = s.keys.acquires leaseId ∧ read ≤ generation

theorem ExclusionInv.initial : ExclusionInv LeaseStore.init := by
  constructor <;> simp [LeaseStore.init, LeaseKeys.init]

/-- Everything one command can do to the lease keys and to the pending writes. -/
theorem Call.await_cases (clock : Int) (k : LeaseKeys) (p : Call) (reply : Reply) {p' : Call}
    {k' : LeaseKeys} (h : p.await clock k reply = (p', k')) :
    (∃ lease ttl, p = .setLease lease ttl ∧ reply = .ok ∧ k.get clock lease.leaseId = none ∧
      p'.pendingWrite = none ∧
      k'.leases = Function.update k.leases lease.leaseId
        (some ⟨lease, deadlineAfter clock ttl, k.acquires lease.leaseId + 1⟩) ∧
      k'.acquires =
        Function.update k.acquires lease.leaseId (k.acquires lease.leaseId + 1)) ∨
    (∃ leaseId read generation, p.pendingWrite = some (leaseId, read, generation) ∧
      p'.pendingWrite = none ∧ k'.acquires = k.acquires ∧
      ∃ stored, k'.leases = Function.update k.leases leaseId stored ∧
        ∀ st ∈ stored, st.generation = read) ∨
    (∃ leaseId ownerId generation stored, p.pendingCheck = some (leaseId, ownerId, generation) ∧
      reply = .ok ∧ k.get clock leaseId = some stored ∧ stored.lease.ownerId = ownerId ∧
      p'.pendingWrite = some (leaseId, stored.generation, generation) ∧ k' = k) ∨
    (p'.pendingWrite = none ∧ k'.leases = k.leases ∧ k'.acquires = k.acquires) := by
  cases reply with
  | ok =>
    cases p with
    | setLease lease ttl =>
      simp only [await] at h
      split at h
      · cases h
        simp [pendingWrite]
      · next absent =>
        cases h
        exact Or.inl ⟨lease, ttl, rfl, rfl, by simpa using absent, rfl, rfl, rfl⟩
    | writeHeartbeat leaseId generation read updated ttl =>
      cases h
      refine Or.inr (Or.inl ⟨leaseId, _, generation, rfl, rfl, rfl, _, rfl, ?_⟩)
      rintro st ⟨⟩
      rfl
    | writeRelease leaseId ownerId generation read =>
      cases h
      exact Or.inr (Or.inl ⟨leaseId, _, generation, rfl, rfl, rfl, none, rfl, by simp⟩)
    | getForHeartbeat leaseId ownerId generation expiresAt =>
      simp only [await] at h
      split at h
      · cases h
        simp [pendingWrite]
      · next stored found =>
        split at h
        · cases h
          simp [pendingWrite]
        · next same =>
          cases h
          exact Or.inr (Or.inr (Or.inl ⟨leaseId, ownerId, generation, stored, rfl, rfl, found,
            by simpa using same, rfl, rfl⟩))
    | getForRelease leaseId ownerId generation =>
      simp only [await] at h
      split at h
      · cases h
        simp [pendingWrite]
      · next stored found =>
        split at h
        · cases h
          simp [pendingWrite]
        · next same =>
          cases h
          exact Or.inr (Or.inr (Or.inl ⟨leaseId, ownerId, generation, stored, rfl, rfl, found,
            by simpa using same, rfl, rfl⟩))
    | listExpired now limit =>
      simp only [await] at h
      split at h <;> cases h <;> simp [pendingWrite]
    | claimListed now leaseIds =>
      simp only [await] at h
      cases h
      split <;> simp [pendingWrite]
    | cleanUp now payloads =>
      cases h
      simp [pendingWrite, foldl_cleanOne_leases]
    | getForRetry leaseId retry =>
      simp only [await] at h
      split at h <;> cases h <;> simp [pendingWrite]
    | _ =>
      cases h
      simp [pendingWrite, LeaseKeys.addOwned]
  | exception => cases p <;> cases h <;> simp [pendingWrite]
  | cancelled => cases p <;> cases h <;> simp [pendingWrite]

section Step

variable {s t : LeaseStore} {n : Nat}

/-- A call that starts writes nothing yet. -/
theorem ExclusionInv.begin (h : ExclusionInv s) {call : Call} (new : call.pendingWrite = none)
    (hs : s.begin n call = some t) : ExclusionInv t := by
  obtain ⟨-, rfl⟩ := LeaseStore.begin_eq_some hs
  refine ⟨h.latest, fun m p leaseId read generation hm hp => ?_⟩
  rcases update_some_cases hm with ⟨rfl, rfl⟩ | ⟨-, hm⟩
  · rw [new] at hp
    cases hp
  · exact h.pending m p leaseId read generation hm hp

theorem ExclusionInv.await (h : ExclusionInv s) {p : Call} {reply : Reply}
    (guarded : Guarded s (.await n reply)) (hn : s.calls n = some p) :
    ExclusionInv { s with
      keys := (p.await s.clock s.keys reply).2
      calls := Function.update s.calls n (some (p.await s.clock s.keys reply).1) } := by
  obtain ⟨p', k', hpk⟩ : ∃ p' k', p.await s.clock s.keys reply = (p', k') := ⟨_, _, rfl⟩
  rw [hpk]
  rcases Call.await_cases s.clock s.keys p reply hpk with
    ⟨lease, ttl, rfl, rfl, absent, quiet, leases, acquires⟩ |
    ⟨leaseId, read, generation, pend, quiet, acquires, stored, leases, same⟩ |
    ⟨leaseId, ownerId, generation, stored, pend, rfl, found, own, pend', rfl⟩ |
    ⟨quiet, leases, acquires⟩
  · have clear := guarded.acquire n lease ttl rfl hn absent
    refine ⟨fun id st hid => ?_, fun m q id r g hm hq => ?_⟩
    · dsimp only at hid ⊢
      rw [leases] at hid
      rw [acquires]
      by_cases hl : id = lease.leaseId
      · subst hl
        simp only [Function.update_self, Option.some.injEq] at hid ⊢
        rw [← hid]
      · rw [Function.update_of_ne hl] at hid ⊢
        exact h.latest id st hid
    · rcases update_some_cases hm with ⟨rfl, rfl⟩ | ⟨-, hm⟩
      · rw [quiet] at hq
        cases hq
      · have hl := clear m q id r g hm hq
        dsimp only
        rw [acquires, Function.update_of_ne hl]
        exact h.pending m q id r g hm hq
  · obtain ⟨hr, -⟩ := h.pending n p leaseId read generation hn pend
    refine ⟨fun id st hid => ?_, fun m q id r g hm hq => ?_⟩
    · dsimp only at hid ⊢
      rw [leases] at hid
      rw [acquires]
      by_cases hl : id = leaseId
      · subst hl
        rw [Function.update_self] at hid
        exact (same st hid).trans hr
      · rw [Function.update_of_ne hl] at hid
        exact h.latest id st hid
    · rcases update_some_cases hm with ⟨rfl, rfl⟩ | ⟨-, hm⟩
      · rw [quiet] at hq
        cases hq
      · dsimp only
        rw [acquires]
        exact h.pending m q id r g hm hq
  · have le := guarded.check n p leaseId ownerId generation stored rfl hn pend found own
    have hl : s.keys.leases leaseId = some stored := (Option.filter_eq_some_iff.mp found).1
    refine ⟨h.latest, fun m q id r g hm hq => ?_⟩
    rcases update_some_cases hm with ⟨rfl, rfl⟩ | ⟨-, hm⟩
    · rw [pend'] at hq
      cases hq
      exact ⟨h.latest leaseId stored hl, le⟩
    · exact h.pending m q id r g hm hq
  · refine ⟨fun id st hid => ?_, fun m q id r g hm hq => ?_⟩
    · dsimp only at hid ⊢
      rw [leases] at hid
      rw [acquires]
      exact h.latest id st hid
    · rcases update_some_cases hm with ⟨rfl, rfl⟩ | ⟨-, hm⟩
      · rw [quiet] at hq
        cases hq
      · dsimp only
        rw [acquires]
        exact h.pending m q id r g hm hq

theorem ExclusionInv.next (h : ExclusionInv s) {l : LeaseStep} (guarded : Guarded s l)
    (hs : leaseStore.next s l = some t) : ExclusionInv t := by
  cases l with
  | acquire n lease => exact h.begin rfl hs
  | heartbeat n holder expiresAt =>
    obtain ⟨_, -, hs⟩ := Option.bind_eq_some_iff.mp hs
    exact h.begin rfl hs
  | release n holder =>
    obtain ⟨_, -, hs⟩ := Option.bind_eq_some_iff.mp hs
    exact h.begin rfl hs
  | claimExpired n now limit => exact h.begin rfl hs
  | releaseExpiredClaim n leaseId retry => exact h.begin rfl hs
  | await n reply =>
    obtain ⟨p, hn, rfl⟩ := Option.map_eq_some_iff.mp hs
    exact h.await guarded hn
  | tick microseconds =>
    cases hs
    exact ⟨h.latest, h.pending⟩

theorem ExclusionInv.exclusive (h : ExclusionInv s) (l : LeaseStep) : Exclusive s l := by
  intro n p leaseId read generation _ hn hp stored found
  have latest := h.latest leaseId stored (Option.filter_eq_some_iff.mp found).1
  obtain ⟨hr, le⟩ := h.pending n p leaseId read generation hn hp
  omega

end Step

/-- In every run whose steps are guarded, no heartbeat or release writes over the record of a later
acquire. -/
theorem lease_writes_are_exclusive (ls : List LeaseStep)
    (along : leaseStore.Along Guarded LeaseStore.init ls) :
    leaseStore.Along Exclusive LeaseStore.init ls :=
  Machine.Along.of_invariant (fun _ _ _ h guarded hs => h.next guarded hs)
    (fun _ l h _ => h.exclusive l) ExclusionInv.initial along

/-- A lease of sixty seconds. -/
def minuteLease (acquiredAt : Int) (ownerId : String) : TaskLease :=
  ⟨"t", "t", ownerId, "worker", acquiredAt, acquiredAt, acquiredAt + 60000000, 0, .observeOnly⟩

def acquireThenRelease : List LeaseStep :=
  [.acquire 0 (minuteLease 0 "w"), .await 0 .ok, .await 0 .ok,
    .release 1 0, .await 1 .ok, .await 1 .ok]

theorem lease_writes_are_exclusive_in_acquireThenRelease :
    (leaseStore.exec LeaseStore.init acquireThenRelease).map (fun s => s.calls 1) =
      some (some (.releaseDone true)) ∧
    leaseStore.Along Exclusive LeaseStore.init acquireThenRelease := by
  refine ⟨rfl, lease_writes_are_exclusive acquireThenRelease ?_⟩
  have quiet : ∀ (s : LeaseStore) (l : LeaseStep), (∀ n, l = .await n .ok → ∃ p,
      s.calls n = some p ∧ p.pendingCheck = none ∧ ∀ lease ttl, p ≠ .setLease lease ttl) →
      Guarded s l := by
    intro s l h
    refine ⟨fun n p leaseId ownerId generation stored hl hn hp => ?_, fun n lease ttl hl hn => ?_⟩
    · obtain ⟨q, hq, none, -⟩ := h n hl
      rw [hq, Option.some.injEq] at hn
      rw [← hn, none] at hp
      cases hp
    · obtain ⟨q, hq, -, other⟩ := h n hl
      rw [hq, Option.some.injEq] at hn
      exact absurd hn (other lease ttl)
  refine .cons (quiet _ _ ?_) rfl <| .cons ⟨?_, ?_⟩ rfl <| .cons (quiet _ _ ?_) rfl <|
    .cons (quiet _ _ ?_) rfl <| .cons ⟨?_, ?_⟩ rfl <| .cons (quiet _ _ ?_) rfl trivial
  · rintro n ⟨⟩
  · rintro n p leaseId ownerId generation stored ⟨⟩ ⟨⟩ ⟨⟩
  · intro n lease ttl _ _ _ m p leaseId read generation hm hp
    rcases update_some_cases hm with ⟨-, rfl⟩ | ⟨-, hm⟩
    · cases hp
    · cases hm
  · rintro n ⟨⟩
    exact ⟨_, rfl, rfl, by rintro _ _ ⟨⟩⟩
  · rintro n ⟨⟩
  · rintro n p leaseId ownerId generation stored ⟨⟩ ⟨⟩ ⟨⟩ ⟨⟩ _
    exact le_refl _
  · rintro n lease ttl ⟨⟩ ⟨⟩
  · rintro n ⟨⟩
    exact ⟨_, rfl, rfl, by rintro _ _ ⟨⟩⟩

/-- Both holders use the same owner id. The first lease expires, the second is acquired, and the
release on behalf of the first deletes the second. -/
theorem stale_release_deletes_later_lease :
    ¬ ∀ ls : List LeaseStep, leaseStore.Along Exclusive LeaseStore.init ls := by
  intro h
  let before : List LeaseStep :=
    [.acquire 0 (minuteLease 0 "w"), .await 0 .ok, .await 0 .ok, .tick 60001000,
      .acquire 1 (minuteLease 60001000 "w"), .await 1 .ok, .await 1 .ok, .release 2 0, .await 2 .ok]
  have exclusive := ((h (before ++ [.await 2 .ok])).of_append rfl).2.1
  have le := exclusive 2 _ "t" 2 1 rfl rfl rfl _ rfl
  exact absurd le (by decide)

end Relayna.Storage.Leases
