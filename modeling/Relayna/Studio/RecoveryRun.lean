import Relayna.Studio.Recovery

/-!
# Workers and operators on one plan

The steps of a tick, the controls of the operators and the service that answers them, interleaved
in any order. Each transaction is one step under the row lock. A worker may fail at any point and
starts the next tick with nothing: what it had claimed or sent stays so.
-/
namespace Relayna.Studio.Recovery

open Python Transition

/-- The retry that a service has accepted for a failure. -/
structure Retried where
  retriedAt : Int
  retriedTaskId : Option String
  deriving DecidableEq, Repr

/-- Where a worker is in its tick. -/
inductive Worker
  | idle
  /-- In preflight, with the version of its snapshot. -/
  | inspecting (version : Nat) (failureId : String)
  | judged (version : Nat) (failureId : String) (verdict : Except PreflightError (Option Int))
  /-- The claim is committed and the request not sent yet. -/
  | claimed (failureId : String)
  | awaiting (failureId : String)
  | answered (failureId : String) (ch : Changes)
  | loading
  | observing (items : List Item)
  /-- About to commit an observation; `none` when an exception ends the tick after that. -/
  | noting (failureId : String) (ch : Changes) (rest : Option (List Item))

/-- `sent`, `claims` and `stopped` record what has happened: the requests sent, the claims with
their time and whether a stop has committed. -/
structure Center where
  plan : Plan
  clock : Int
  nextPollAt : Int
  workers : Nat → Worker := fun _ => .idle
  inFlight : List String := []
  records : String → Option Retried := fun _ => none
  sent : List String := []
  claims : List (String × Int) := []
  stopped : Bool := false

inductive Step
  | clock (now : Int)
  | control (c : Control)
  | due (w : Nat)
  | preflight (w : Nat) (verdict : Except PreflightError (Option Int))
  | commit (w : Nat)
  | send (w : Nat)
  | retry (failureId : String) (r : Retried)
  | respond (w : Nat) (answer : Except String RetryReceipt)
  | record (w : Nat)
  | load (w : Nat)
  | observe (w : Nat) (now : Int) (e : Evidence)
  | note (w : Nat)
  | settle (w : Nat)
  | fail (w : Nat)

namespace Center

variable (s : Center)

/-- A receipt of an accepted retry is the one the service has recorded. -/
def attests (failureId : String) (r : RetryReceipt) : Bool :=
  (r.acceptance failureId).all fun t => s.records failureId = some ⟨t, r.retriedTaskId⟩

def move (w : Nat) (at' : Worker) : Center :=
  { s with workers := Function.update s.workers w at' }

/-- `due` schedules the next poll of the plan it returns. -/
def pollInterval : Int :=
  if s.plan.state = .running ∨ s.plan.items.any Item.observable then seconds 2 else seconds 86400

/-- A control that is accepted. `batch` and `resume` make the plan due at once. -/
def controlled (c : Control) (q : Plan) : Center :=
  { s with
    plan := q
    nextPollAt := if c.action = .batch ∨ c.action = .resume then s.clock else s.nextPollAt
    stopped := s.stopped || c.action = .stop }

/-- Commit an edit, or nothing where the edit changes nothing. -/
def change (edit : Option Plan) : Center :=
  { s with plan := edit.getD s.plan }

def commit (w version : Nat) (failureId : String) :
    Except PreflightError (Option Int) → Center
  | .error e => (s.change (s.plan.block failureId e)).move w .loading
  | .ok baseline =>
    match s.plan.claim version failureId baseline s.clock with
    | none => s.move w .loading
    | some q =>
      { s with plan := q, claims := s.claims ++ [(failureId, s.clock)] }.move w
        (.claimed failureId)

end Center

/-- One step; `none` where it cannot be taken. -/
def next (s : Center) : Step → Option Center
  | .clock now => if s.clock ≤ now then some { s with clock := now } else none
  | .control c =>
    match s.plan.control c s.clock with
    | .error _ => some s
    | .ok q => some (s.controlled c q)
  | .due w =>
    match s.workers w with
    | .idle =>
      if s.nextPollAt ≤ s.clock then
        some ({ s with nextPollAt := s.clock + s.pollInterval }.move w
          (s.plan.dispatchTarget.elim .loading (.inspecting s.plan.version)))
      else none
    | _ => none
  | .preflight w verdict =>
    match s.workers w with
    | .inspecting version f => some (s.move w (.judged version f verdict))
    | _ => none
  | .commit w =>
    match s.workers w with
    | .judged version f verdict => some (s.commit w version f verdict)
    | _ => none
  | .send w =>
    match s.workers w with
    | .claimed f =>
      some ({ s with sent := s.sent ++ [f], inFlight := f :: s.inFlight }.move w (.awaiting f))
    | _ => none
  | .retry f r =>
    if f ∈ s.inFlight then
      some { s with
        inFlight := s.inFlight.erase f
        records := Function.update s.records f (some r) }
    else none
  | .respond w answer =>
    match s.workers w with
    | .awaiting f =>
      if answer.toOption.all (s.attests f) then some (s.move w (.answered f (recorded f answer)))
      else none
    | _ => none
  | .record w =>
    match s.workers w with
    | .answered f ch => some ((s.change (s.plan.itemChange f ch)).move w .loading)
    | _ => none
  | .load w =>
    match s.workers w with
    | .loading => some (s.move w (.observing (candidates s.plan.items)))
    | _ => none
  | .observe w now e =>
    match s.workers w with
    | .observing (i :: rest) =>
      if e.receipt.toOption.all (fun r => !r.marked i.receiptMarker || s.attests i.failureId r) then
        match Recovery.observe i now e with
        | none => some (s.move w (.observing rest))
        | some (ch, raised) =>
          some (s.move w (.noting i.failureId ch (if raised then none else some rest)))
      else none
    | _ => none
  | .note w =>
    match s.workers w with
    | .noting f ch rest =>
      some ((s.change (s.plan.itemChange f ch)).move w (rest.elim .idle .observing))
    | _ => none
  | .settle w =>
    match s.workers w with
    | .observing [] => some ((s.change (s.plan.settle s.clock)).move w .idle)
    | _ => none
  | .fail w => some (s.move w .idle)

def machine : Machine Center Step := ⟨next⟩

/-- A plan has just been created and no worker has seen it. -/
def start (p : Plan) (clock nextPollAt : Int) : Center where
  plan := p
  clock := clock
  nextPollAt := nextPollAt

/-! ## What a step can do -/

/-- Every step that is taken, with the state it leads to. -/
inductive Taken (s : Center) : Step → Center → Prop
  | clock {now : Int} (later : s.clock ≤ now) : Taken s (.clock now) { s with clock := now }
  | refused {c : Control} {e : HTTPException} (h : s.plan.control c s.clock = .error e) :
      Taken s (.control c) s
  | controlled {c : Control} {q : Plan} (h : s.plan.control c s.clock = .ok q) :
      Taken s (.control c) (s.controlled c q)
  | due {w : Nat} (here : s.workers w = .idle) :
      Taken s (.due w) ({ s with nextPollAt := s.clock + s.pollInterval }.move w
        (s.plan.dispatchTarget.elim .loading (.inspecting s.plan.version)))
  | preflight {w version : Nat} {f : String} (verdict : Except PreflightError (Option Int))
      (here : s.workers w = .inspecting version f) :
      Taken s (.preflight w verdict) (s.move w (.judged version f verdict))
  | block {w version : Nat} {f : String} {e : PreflightError}
      (here : s.workers w = .judged version f (.error e)) :
      Taken s (.commit w) ((s.change (s.plan.block f e)).move w .loading)
  | unclaimed {w version : Nat} {f : String} {baseline : Option Int}
      (here : s.workers w = .judged version f (.ok baseline)) :
      Taken s (.commit w) (s.move w .loading)
  | claim {w version : Nat} {f : String} {baseline : Option Int} {q : Plan}
      (here : s.workers w = .judged version f (.ok baseline))
      (h : s.plan.claim version f baseline s.clock = some q) :
      Taken s (.commit w)
        ({ s with plan := q, claims := s.claims ++ [(f, s.clock)] }.move w (.claimed f))
  | send {w : Nat} {f : String} (here : s.workers w = .claimed f) :
      Taken s (.send w)
        ({ s with sent := s.sent ++ [f], inFlight := f :: s.inFlight }.move w (.awaiting f))
  | retry {f : String} (r : Retried) (arrived : f ∈ s.inFlight) :
      Taken s (.retry f r)
        { s with
          inFlight := s.inFlight.erase f
          records := Function.update s.records f (some r) }
  | respond {w : Nat} {f : String} {answer : Except String RetryReceipt}
      (here : s.workers w = .awaiting f) (attested : ∀ r, answer = .ok r → s.attests f r) :
      Taken s (.respond w answer) (s.move w (.answered f (recorded f answer)))
  | record {w : Nat} {f : String} {ch : Changes} (here : s.workers w = .answered f ch) :
      Taken s (.record w) ((s.change (s.plan.itemChange f ch)).move w .loading)
  | load {w : Nat} (here : s.workers w = .loading) :
      Taken s (.load w) (s.move w (.observing (candidates s.plan.items)))
  | skip {w : Nat} {now : Int} {i : Item} {rest : List Item} (e : Evidence)
      (here : s.workers w = .observing (i :: rest)) :
      Taken s (.observe w now e) (s.move w (.observing rest))
  | observe {w : Nat} {now : Int} {i : Item} {rest : List Item} {e : Evidence} {ch : Changes}
      {raised : Bool} (here : s.workers w = .observing (i :: rest))
      (attested : ∀ r, e.receipt = .ok r → r.marked i.receiptMarker → s.attests i.failureId r)
      (h : Recovery.observe i now e = some (ch, raised)) :
      Taken s (.observe w now e)
        (s.move w (.noting i.failureId ch (if raised then none else some rest)))
  | note {w : Nat} {f : String} {ch : Changes} {rest : Option (List Item)}
      (here : s.workers w = .noting f ch rest) :
      Taken s (.note w) ((s.change (s.plan.itemChange f ch)).move w (rest.elim .idle .observing))
  | settle {w : Nat} (here : s.workers w = .observing []) :
      Taken s (.settle w) ((s.change (s.plan.settle s.clock)).move w .idle)
  | fail (w : Nat) : Taken s (.fail w) (s.move w .idle)

theorem taken_of_next {s t : Center} {l : Step} (h : next s l = some t) : Taken s l t := by
  cases l with
  | clock now =>
    obtain ⟨later, rfl⟩ : s.clock ≤ now ∧ { s with clock := now } = t := by
      simpa [next] using h
    exact .clock later
  | control c =>
    simp only [next] at h
    split at h
    · next e refused =>
      obtain rfl := Option.some.inj h
      exact .refused refused
    · next q ok =>
      obtain rfl := Option.some.inj h
      exact .controlled ok
  | due w =>
    simp only [next] at h
    split at h
    · next here =>
      split at h
      · obtain rfl := Option.some.inj h
        exact .due here
      · cases h
    · cases h
  | preflight w verdict =>
    simp only [next] at h
    split at h
    · next here =>
      obtain rfl := Option.some.inj h
      exact .preflight verdict here
    · cases h
  | commit w =>
    simp only [next] at h
    split at h
    · next version f verdict here =>
      obtain rfl := Option.some.inj h
      cases verdict with
      | error e => exact .block here
      | ok baseline =>
        cases hc : s.plan.claim version f baseline s.clock with
        | none => simpa [Center.commit, hc] using Taken.unclaimed here
        | some q => simpa [Center.commit, hc] using Taken.claim here hc
    · cases h
  | send w =>
    simp only [next] at h
    split at h
    · next here =>
      obtain rfl := Option.some.inj h
      exact .send here
    · cases h
  | retry f r =>
    simp only [next] at h
    split at h
    · next arrived =>
      obtain rfl := Option.some.inj h
      exact .retry r arrived
    · cases h
  | respond w answer =>
    simp only [next] at h
    split at h
    · next here =>
      split at h
      · next attested =>
        obtain rfl := Option.some.inj h
        exact .respond here fun r hr => by simpa [hr, Except.toOption] using attested
      · cases h
    · cases h
  | record w =>
    simp only [next] at h
    split at h
    · next here =>
      obtain rfl := Option.some.inj h
      exact .record here
    · cases h
  | load w =>
    simp only [next] at h
    split at h
    · next here =>
      obtain rfl := Option.some.inj h
      exact .load here
    · cases h
  | observe w now e =>
    simp only [next] at h
    split at h
    · next i rest here =>
      split at h
      · next attested =>
        split at h
        · obtain rfl := Option.some.inj h
          exact .skip e here
        · next ch raised noted =>
          obtain rfl := Option.some.inj h
          refine .observe here (fun r hr marked => ?_) noted
          simpa [hr, marked, Except.toOption] using attested
      · cases h
    · cases h
  | note w =>
    simp only [next] at h
    split at h
    · next here =>
      obtain rfl := Option.some.inj h
      exact .note here
    · cases h
  | settle w =>
    simp only [next] at h
    split at h
    · next here =>
      obtain rfl := Option.some.inj h
      exact .settle here
    · cases h
  | fail w =>
    obtain rfl := Option.some.inj h
    exact .fail w

end Relayna.Studio.Recovery
