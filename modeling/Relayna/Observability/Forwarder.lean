import Relayna.Foundation.Transition
import Mathlib.Data.List.Basic

/-!
# The Studio observation forwarder

`StudioObservationForwarder` appends accepted observations to a pending list and posts the
whole list as one batch. A `flush` runs without interruption up to the HTTP post, where it
is suspended; other calls and flushes run meanwhile. When the post succeeds it deletes as
many entries from the front of the pending list as its batch had.

The deletion is by length. It removes the posted batch only while the pending list still
begins with that batch: a second flush that succeeded in between has already removed it,
and the entries deleted instead were never posted.
-/
namespace Relayna.Observability

open Transition

/-- What the forwarder is built from. `modelDump` is `none` where Pydantic cannot serialise. -/
structure ForwarderConfig (Obs Event Body : Type) where
  batchSize : Int
  normalizeObservationFeedEvent : Obs → Option Event
  modelDump : Event → Option Body

/-- `self._batch_size = max(1, batch_size)`. -/
def ForwarderConfig.effectiveBatchSize {Obs Event Body : Type}
    (c : ForwarderConfig Obs Event Body) : Int := max 1 c.batchSize

/-- An accepted event, with its place in the order of acceptance. -/
structure Accepted (Event : Type) where
  serial : Nat
  event : Event
  deriving DecidableEq, Repr

/-- `flights n` is the batch of invocation `n` while it is suspended at its post. The lists
`accepted` and `delivered` are history: no step reads them back. -/
structure Forwarder (Event : Type) where
  pending : List (Accepted Event)
  flights : Nat → Option (List (Accepted Event))
  accepted : List (Accepted Event)
  delivered : List (List (Accepted Event))

namespace Forwarder

variable {Obs Event Body : Type} (c : ForwarderConfig Obs Event Body)

def init : Forwarder Event := ⟨[], fun _ => none, [], []⟩

/-- `flush` up to its first suspension. The request body is built outside the `try`, so an
event that cannot be serialised makes the call raise with nothing changed. -/
def flush (s : Forwarder Event) (n : Nat) : Forwarder Event :=
  if s.pending.isEmpty then s
  else match s.pending.mapM (fun a => c.modelDump a.event) with
    | none => s
    | some _ => { s with flights := Function.update s.flights n (some s.pending) }

def push (s : Forwarder Event) (e : Event) : Forwarder Event :=
  { s with
    pending := s.pending ++ [⟨s.accepted.length, e⟩]
    accepted := s.accepted ++ [⟨s.accepted.length, e⟩] }

/-- `__call__` up to its first suspension. -/
def call (s : Forwarder Event) (n : Nat) (o : Obs) : Forwarder Event :=
  match c.normalizeObservationFeedEvent o with
  | none => s
  | some e =>
    if c.effectiveBatchSize ≤ ((s.push e).pending.length : Int) then (s.push e).flush c n
    else s.push e

/-- The rest of `flush` once the post of `batch` has succeeded or failed. -/
def posted (s : Forwarder Event) (n : Nat) (batch : List (Accepted Event)) (success : Bool) :
    Forwarder Event :=
  let t := { s with flights := Function.update s.flights n none }
  if success then
    { t with pending := t.pending.drop batch.length, delivered := t.delivered ++ [batch] }
  else t

inductive Step (Obs : Type) where
  | call (n : Nat) (o : Obs)
  | flush (n : Nat)
  | post (n : Nat) (success : Bool)

/-- Any number of invocations, interleaved at their HTTP posts. -/
def machine : Machine (Forwarder Event) (Step Obs) where
  next s l := match l with
    | .call n o => if (s.flights n).isNone then some (s.call c n o) else none
    | .flush n => if (s.flights n).isNone then some (s.flush c n) else none
    | .post n success => (s.flights n).map fun batch => s.posted n batch success

/-- Every accepted event is pending or in a batch whose post succeeded. -/
def NothingLost (s : Forwarder Event) : Prop :=
  ∀ a ∈ s.accepted, a ∈ s.pending ∨ ∃ batch ∈ s.delivered, a ∈ batch

/-- A post that succeeds finds its batch still at the front of the pending list. -/
def BatchInFront (s : Forwarder Event) (l : Step Obs) : Prop :=
  ∀ n batch, l = .post n true → s.flights n = some batch → batch <+: s.pending

@[simp] theorem flush_accepted (s : Forwarder Event) (n : Nat) :
    (s.flush c n).accepted = s.accepted := by
  unfold flush; split
  · rfl
  · split <;> rfl

@[simp] theorem flush_pending (s : Forwarder Event) (n : Nat) :
    (s.flush c n).pending = s.pending := by
  unfold flush; split
  · rfl
  · split <;> rfl

@[simp] theorem flush_delivered (s : Forwarder Event) (n : Nat) :
    (s.flush c n).delivered = s.delivered := by
  unfold flush; split
  · rfl
  · split <;> rfl

variable {c}

theorem NothingLost.flush {s : Forwarder Event} (h : NothingLost s) (n : Nat) :
    NothingLost (s.flush c n) := by
  simpa [NothingLost] using h

theorem NothingLost.push {s : Forwarder Event} (h : NothingLost s) (e : Event) :
    NothingLost (s.push e) := by
  intro a ha
  simp only [Forwarder.push, List.mem_append, List.mem_singleton] at ha ⊢
  rcases ha with ha | rfl
  · rcases h a ha with hp | hd
    · exact Or.inl (Or.inl hp)
    · exact Or.inr hd
  · exact Or.inl (Or.inr rfl)

theorem NothingLost.call {s : Forwarder Event} (h : NothingLost s) (n : Nat) (o : Obs) :
    NothingLost (s.call c n o) := by
  unfold Forwarder.call
  split
  · exact h
  · split
    · exact (h.push _).flush n
    · exact h.push _

theorem NothingLost.posted {s : Forwarder Event} (h : NothingLost s) (n : Nat)
    {batch : List (Accepted Event)} (success : Bool) (front : success → batch <+: s.pending) :
    NothingLost (s.posted n batch success) := by
  cases success with
  | false => simpa [NothingLost, Forwarder.posted] using h
  | true =>
    obtain ⟨rest, hrest⟩ := front rfl
    intro a ha
    simp only [Forwarder.posted, if_true, ← hrest, List.drop_left] at ha ⊢
    rcases h a ha with hp | ⟨b, hb, hab⟩
    · rw [← hrest] at hp
      rcases List.mem_append.mp hp with hp | hp
      · exact Or.inr ⟨batch, by simp, hp⟩
      · exact Or.inl hp
    · exact Or.inr ⟨b, by simp [hb], hab⟩

theorem NothingLost.next {s t : Forwarder Event} {l : Step Obs} (h : NothingLost s)
    (front : BatchInFront s l) (hs : (machine c).next s l = some t) : NothingLost t := by
  cases l with
  | call n o =>
    simp only [machine, Option.ite_none_right_eq_some, Option.some.injEq] at hs
    exact hs.2 ▸ h.call n o
  | flush n =>
    simp only [machine, Option.ite_none_right_eq_some, Option.some.injEq] at hs
    exact hs.2 ▸ h.flush n
  | post n success =>
    obtain ⟨batch, hb, rfl⟩ := Option.map_eq_some_iff.mp hs
    refine h.posted n success fun hsucc => front n batch ?_ hb
    simp [hsucc]

/-- In every run whose successful posts find their batch in front, nothing is lost. -/
theorem forwarder_loses_nothing (ls : List (Step Obs)) {s : Forwarder Event}
    (along : (machine c).Along BatchInFront init ls)
    (run : (machine c).exec init ls = some s) : NothingLost s :=
  Machine.invariant_along (fun _ _ _ h front hs => h.next front hs)
    (by simp [NothingLost, init]) along run

/-- A batch size of one, and observations that are accepted and serialised as they are. -/
def plain : ForwarderConfig Nat Nat Nat := ⟨1, some, some⟩

/-- The second post overlaps the first and fails; what it held is posted again. -/
def overlappingPosts : List (Step Nat) :=
  [.call 0 7, .call 1 8, .post 0 true, .post 1 false, .flush 2, .post 2 true]

theorem forwarder_loses_nothing_in_overlappingPosts :
    ((machine plain).exec init overlappingPosts).map
      (fun s => (s.pending, s.delivered)) = some ([], [[⟨0, 7⟩], [⟨1, 8⟩]]) ∧
    ∃ s, (machine plain).exec init overlappingPosts = some s ∧ NothingLost s := by
  have quiet (s : Forwarder Nat) (l : Step Nat) (h : ∀ n, l ≠ .post n true) : BatchInFront s l :=
    fun n _ hl => absurd hl (h n)
  have front (s : Forwarder Nat) (l : Step Nat) (n : Nat) (hl : l = .post n true)
      (h : ∀ batch, s.flights n = some batch → batch <+: s.pending) : BatchInFront s l := by
    rintro m batch same hb
    rw [hl] at same
    cases same
    exact h batch hb
  refine ⟨by decide, _, rfl, forwarder_loses_nothing (c := plain) overlappingPosts ?_ rfl⟩
  refine .cons (quiet _ _ nofun) rfl <| .cons (quiet _ _ nofun) rfl <|
    .cons (front _ _ _ rfl ?_) rfl <| .cons (quiet _ _ nofun) rfl <| .cons (quiet _ _ nofun) rfl <|
    .cons (front _ _ _ rfl ?_) rfl trivial
  · rintro batch ⟨⟩
    exact ⟨[⟨1, 8⟩], rfl⟩
  · rintro batch ⟨⟩
    exact ⟨[], rfl⟩

/-- Two flushes post the same event; the second success deletes the event accepted in between,
whose own post fails. -/
theorem overlapping_flushes_lose_an_event :
    ¬ ∀ (ls : List (Step Nat)) (s : Forwarder Nat),
      (machine plain).exec init ls = some s → NothingLost s := by
  intro h
  have lost := h [.call 0 7, .flush 1, .post 0 true, .call 2 8, .post 1 true, .post 2 false] _ rfl
    ⟨1, 8⟩ (by decide)
  revert lost
  decide

end Forwarder

end Relayna.Observability
