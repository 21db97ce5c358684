import Mathlib.Data.Finset.Basic
import Mathlib.Data.String.Basic
import Relayna.Foundation.SortedSet
import Relayna.Foundation.Transition
import Relayna.Storage.Keys

/-!
# The task lease store

A lease is a Redis key with a time to live. Besides it the store keeps a sorted set of expiry
times and a set of lease ids whose expiry some scanner has claimed. `acquire` and `heartbeat`
truncate the time to live to whole seconds; the sorted set has the exact time.

`Call` is the place of one call between two awaited commands or pipelines and `Call.await` is
one of them. The clock moves between commands; a key is there until its deadline. Times are in
microseconds. `generation` counts the successful acquires of a lease id and `reported` lists what
`claim_expired` calls have returned; no step reads them.
-/
namespace Relayna.Storage.Leases

open Transition

inductive LeaseRecoveryAction where
  | observeOnly
  | publishStaleStatus
  | requeue
  | retry
  | deadLetter
  deriving DecidableEq, Repr

structure TaskLease where
  leaseId : String
  taskId : String
  ownerId : String
  consumerName : String
  acquiredAt : Int
  heartbeatAt : Int
  expiresAt : Int
  attempt : Int
  recoveryAction : LeaseRecoveryAction
  deriving DecidableEq, Repr

/-- A lease key: its payload, when Redis removes it and whose acquire it goes back to. -/
structure StoredLease where
  lease : TaskLease
  deadline : Int
  generation : Nat
  deriving DecidableEq, Repr

structure LeaseKeys where
  leases : String → Option StoredLease
  owners : String → Finset String
  expiries : SortedSet String
  expiredClaims : Finset String
  acquires : String → Nat
  reported : List String

namespace LeaseKeys

def init : LeaseKeys := ⟨fun _ => none, fun _ => ∅, .empty, ∅, fun _ => 0, []⟩

/-- `GET` of a lease key. -/
def get (k : LeaseKeys) (clock : Int) (leaseId : String) : Option StoredLease :=
  (k.leases leaseId).filter fun stored => clock < stored.deadline

def addOwned (k : LeaseKeys) (ownerId leaseId : String) : LeaseKeys :=
  { k with owners := Function.update k.owners ownerId (insert leaseId (k.owners ownerId)) }

def removeOwned (k : LeaseKeys) (ownerId leaseId : String) : LeaseKeys :=
  { k with owners := Function.update k.owners ownerId ((k.owners ownerId).erase leaseId) }

end LeaseKeys

/-- `max(1, int((expires_at - now).total_seconds()))`. -/
def ttlSeconds (expiresAt now : Int) : Int := max 1 ((expiresAt - now).tdiv 1000000)

def deadlineAfter (clock ttl : Int) : Int := clock + ttl * 1000000

/-- The command a call awaits next, or how it ended. Heartbeats and releases carry the generation
of the acquire on whose behalf they are made. -/
inductive Call where
  | setLease (lease : TaskLease) (ttl : Int)
  | indexLease (lease : TaskLease) (generation : Nat)
  | acquired (lease : TaskLease) (generation : Nat)
  | refused
  | getForHeartbeat (leaseId ownerId : String) (generation : Nat) (expiresAt : Int)
  | writeHeartbeat (leaseId : String) (generation : Nat) (read : StoredLease) (updated : TaskLease)
      (ttl : Int)
  | heartbeatDone (updated : Option TaskLease)
  | getForRelease (leaseId ownerId : String) (generation : Nat)
  | writeRelease (leaseId ownerId : String) (generation : Nat) (read : StoredLease)
  | releaseDone (released : Bool)
  | listExpired (now limit : Int)
  | claimListed (now : Int) (leaseIds : List String)
  | readClaimed (now : Int) (claimedIds : List String)
  | cleanUp (now : Int) (payloads : List (String × Option StoredLease))
  | scanDone (expired : List TaskLease)
  | getForRetry (leaseId : String) (retry : Bool)
  | unclaim (leaseId : String) (expiry : Option Int)
  | unclaimed
  | raised
  deriving DecidableEq, Repr

namespace Call

/-- What the cleanup pipeline of `claim_expired` holds for one claimed id. -/
def cleanOne (now : Int) (k : LeaseKeys) (claimed : String × Option StoredLease) : LeaseKeys :=
  let k := { k with expiries := k.expiries.remove claimed.1 }
  match claimed.2 with
  | none => { k with expiredClaims := k.expiredClaims.erase claimed.1 }
  | some stored =>
    if stored.lease.expiresAt > now then
      { k with
        expiries := k.expiries.add claimed.1 stored.lease.expiresAt
        expiredClaims := k.expiredClaims.erase claimed.1 }
    else { k with reported := k.reported ++ [claimed.1] }

def expiredLeases (now : Int) (payloads : List (String × Option StoredLease)) : List TaskLease :=
  payloads.filterMap fun claimed =>
    (claimed.2.filter fun stored => stored.lease.expiresAt ≤ now).map StoredLease.lease

/-- One awaited command and what the call does up to the next. A command that fails has no effect
and ends its call. -/
def await (clock : Int) (k : LeaseKeys) : Call → Reply → Call × LeaseKeys
  | .setLease lease ttl, .ok =>
    if (k.get clock lease.leaseId).isSome then (.refused, k)
    else
      let generation := k.acquires lease.leaseId + 1
      let stored := ⟨lease, deadlineAfter clock ttl, generation⟩
      (.indexLease lease generation,
        { k with
          leases := Function.update k.leases lease.leaseId (some stored)
          acquires := Function.update k.acquires lease.leaseId generation })
  | .indexLease lease generation, .ok =>
    (.acquired lease generation,
      { k.addOwned lease.ownerId lease.leaseId with
        expiredClaims := k.expiredClaims.erase lease.leaseId
        expiries := k.expiries.add lease.leaseId lease.expiresAt })
  | .getForHeartbeat leaseId ownerId generation expiresAt, .ok =>
    match k.get clock leaseId with
    | none => (.heartbeatDone none, k)
    | some read =>
      if read.lease.ownerId ≠ ownerId then (.heartbeatDone none, k)
      else
        let updated := { read.lease with heartbeatAt := clock, expiresAt := expiresAt }
        (.writeHeartbeat leaseId generation read updated (ttlSeconds expiresAt clock), k)
  | .writeHeartbeat leaseId _ read updated ttl, .ok =>
    (.heartbeatDone (some updated),
      { k with
        leases := Function.update k.leases leaseId
          (some ⟨updated, deadlineAfter clock ttl, read.generation⟩)
        expiries := k.expiries.add leaseId updated.expiresAt })
  | .getForRelease leaseId ownerId generation, .ok =>
    match k.get clock leaseId with
    | none => (.releaseDone false, k)
    | some read =>
      if read.lease.ownerId ≠ ownerId then (.releaseDone false, k)
      else (.writeRelease leaseId ownerId generation read, k)
  | .writeRelease leaseId ownerId _ _, .ok =>
    (.releaseDone true,
      { k.removeOwned ownerId leaseId with
        leases := Function.update k.leases leaseId none
        expiries := k.expiries.remove leaseId
        expiredClaims := k.expiredClaims.erase leaseId })
  | .listExpired now limit, .ok =>
    match k.expiries.rangeByScore now limit with
    | [] => (.scanDone [], k)
    | leaseIds => (.claimListed now leaseIds, k)
  | .claimListed now leaseIds, .ok =>
    (match leaseIds.filter (· ∉ k.expiredClaims) with
      | [] => .scanDone []
      | claimedIds => .readClaimed now claimedIds,
      { k with expiredClaims := k.expiredClaims ∪ leaseIds.toFinset })
  | .readClaimed now claimedIds, .ok =>
    (.cleanUp now (claimedIds.map fun leaseId => (leaseId, k.get clock leaseId)), k)
  | .cleanUp now payloads, .ok =>
    (.scanDone (expiredLeases now payloads), payloads.foldl (cleanOne now) k)
  | .getForRetry leaseId retry, .ok =>
    match k.get clock leaseId with
    | some stored => (.unclaim leaseId (if retry then some stored.lease.expiresAt else none), k)
    | none => (.unclaim leaseId none, k)
  | .unclaim leaseId expiry, .ok =>
    (.unclaimed,
      { k with
        expiries := match expiry with
          | some expiresAt => k.expiries.add leaseId expiresAt
          | none => k.expiries
        expiredClaims := k.expiredClaims.erase leaseId })
  | .acquired lease generation, _ => (.acquired lease generation, k)
  | .refused, _ => (.refused, k)
  | .heartbeatDone updated, _ => (.heartbeatDone updated, k)
  | .releaseDone released, _ => (.releaseDone released, k)
  | .scanDone expired, _ => (.scanDone expired, k)
  | .unclaimed, _ => (.unclaimed, k)
  | _, _ => (.raised, k)

end Call

structure LeaseStore where
  clock : Int
  keys : LeaseKeys
  calls : Nat → Option Call

def LeaseStore.init : LeaseStore := ⟨0, .init, fun _ => none⟩

/-- Calls start, their commands take effect or fail, and time passes. A heartbeat and a release are
made on behalf of an acquire that has returned `True`; `claim_expired` takes `now` from the clock
unless it is given one. -/
inductive LeaseStep where
  | acquire (n : Nat) (lease : TaskLease)
  | heartbeat (n holder : Nat) (expiresAt : Int)
  | release (n holder : Nat)
  | claimExpired (n : Nat) (now : Option Int) (limit : Int)
  | releaseExpiredClaim (n : Nat) (leaseId : String) (retry : Bool)
  | await (n : Nat) (reply : Reply)
  | tick (microseconds : Nat)
  deriving DecidableEq, Repr

namespace LeaseStore

def begin (s : LeaseStore) (n : Nat) (call : Call) : Option LeaseStore :=
  if (s.calls n).isNone then some { s with calls := Function.update s.calls n (some call) }
  else none

/-- The lease and the generation of an acquire that has returned `True`. -/
def held (s : LeaseStore) (holder : Nat) : Option (TaskLease × Nat) :=
  match s.calls holder with
  | some (.acquired lease generation) => some (lease, generation)
  | _ => none

end LeaseStore

def leaseStore : Machine LeaseStore LeaseStep where
  next s l := match l with
    | .acquire n lease => s.begin n (.setLease lease (ttlSeconds lease.expiresAt s.clock))
    | .heartbeat n holder expiresAt => (s.held holder).bind fun h =>
      s.begin n (.getForHeartbeat h.1.leaseId h.1.ownerId h.2 expiresAt)
    | .release n holder => (s.held holder).bind fun h =>
      s.begin n (.getForRelease h.1.leaseId h.1.ownerId h.2)
    | .claimExpired n now limit => s.begin n (.listExpired (now.getD s.clock) limit)
    | .releaseExpiredClaim n leaseId retry => s.begin n (.getForRetry leaseId retry)
    | .await n reply => (s.calls n).map fun call =>
      let after := call.await s.clock s.keys reply
      { s with keys := after.2, calls := Function.update s.calls n (some after.1) }
    | .tick microseconds => some { s with clock := s.clock + microseconds }

theorem LeaseStore.begin_eq_some {s t : LeaseStore} {n : Nat} {call : Call}
    (h : s.begin n call = some t) :
    s.calls n = none ∧ t = { s with calls := Function.update s.calls n (some call) } := by
  simp only [begin, Option.ite_none_right_eq_some, Option.some.injEq,
    Option.isNone_iff_eq_none] at h
  exact ⟨h.1, h.2.symm⟩

/-- The cleanup pipeline touches no lease key. -/
theorem Call.foldl_cleanOne_leases (now : Int) (payloads : List (String × Option StoredLease))
    (k : LeaseKeys) :
    (payloads.foldl (cleanOne now) k).leases = k.leases ∧
      (payloads.foldl (cleanOne now) k).acquires = k.acquires := by
  induction payloads generalizing k with
  | nil => exact ⟨rfl, rfl⟩
  | cons claimed payloads ih =>
    have one : (cleanOne now k claimed).leases = k.leases ∧
        (cleanOne now k claimed).acquires = k.acquires := by
      unfold cleanOne
      split
      · exact ⟨rfl, rfl⟩
      · split <;> exact ⟨rfl, rfl⟩
    rw [List.foldl_cons, (ih _).1, (ih _).2]
    exact one

end Relayna.Storage.Leases
