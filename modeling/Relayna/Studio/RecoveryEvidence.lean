import Relayna.Studio.RecoveryDispatch

/-!
# Recovery evidence only accumulates

The dispatcher and the observers write changes that they computed from an older copy of the item.
What makes this safe is that every change is warranted by something that stays true: the item has
been requested, it has been accepted when the change does not say so itself, and the one retry that
the service has recorded for it is the one both writers name.
-/
namespace Relayna.Studio.Recovery

open Transition

/-- A retry request may have been sent. -/
def DispatchState.requested (d : DispatchState) : Bool :=
  d = .dispatching || d = .unknown || d = .accepted

def Requested (p : Plan) (f : String) : Prop :=
  ∃ i, p.item? f = some i ∧ i.dispatchState.requested = true

def AcceptedIn (p : Plan) (f : String) : Prop :=
  ∃ i, p.item? f = some i ∧ i.dispatchState = .accepted

/-- The moves of a dispatch state. -/
inductive DispatchMove : DispatchState → DispatchState → Prop
  | stay (d : DispatchState) : DispatchMove d d
  | block : DispatchMove .pending .blocked
  | claim : DispatchMove .pending .dispatching
  | lose : DispatchMove .dispatching .unknown
  | accept : DispatchMove .dispatching .accepted
  | resolve : DispatchMove .unknown .accepted

/-- An item before and after a step. -/
structure Moved (i j : Item) : Prop where
  same : j.failureId = i.failureId
  dispatch : DispatchMove i.dispatchState j.dispatchState
  outcome : i.outcome.terminal = true → j.outcome = i.outcome

theorem Moved.refl (i : Item) : Moved i i := ⟨rfl, .stay _, fun _ => rfl⟩

theorem DispatchMove.requested {d d' : DispatchState} (h : DispatchMove d d')
    (requested : d.requested = true) : d'.requested = true := by
  cases h <;> first | exact requested | cases requested

theorem DispatchMove.accepted {d d' : DispatchState} (h : DispatchMove d d')
    (accepted : d = .accepted) : d' = .accepted := by
  cases h <;> first | exact accepted | cases accepted

/-! ## What an item and a change rest on -/

/-- The item agrees with what the service has recorded. -/
structure Coherent (records : String → Option Retried) (i : Item) : Prop where
  requested : i.dispatchState.requested = true → i.requestedAt.isSome = true
  accepted : i.dispatchState = .accepted →
    ∃ r, records i.failureId = some r ∧ i.acceptedAt = some r.retriedAt
  unaccepted : i.dispatchState ≠ .accepted → i.acceptedAt = none
  observed : i.outcome.terminal = true → i.dispatchState = .accepted ∧
    ∃ r o, records i.failureId = some r ∧ i.observedAt = some o ∧ r.retriedAt ≤ o

/-- The change may be written at any later time. -/
structure Warranted (s : Center) (f : String) (ch : Changes) : Prop where
  requested : Requested s.plan f
  silent : ch.dispatchState = none → AcceptedIn s.plan f
  accepted : ch.dispatchState = some .accepted →
    ∃ r, s.records f = some r ∧ ch.acceptedAt = some r.retriedAt
  unaccepted : ch.dispatchState ≠ some .accepted → ch.acceptedAt = none
  observed : (∃ o ∈ ch.outcome, o.terminal = true) → ch.dispatchState ≠ some .unknown ∧
    ∃ r o, s.records f = some r ∧ ch.observedAt = some o ∧ r.retriedAt ≤ o

/-- The copy of an item that an observer holds. -/
structure Seen (s : Center) (i : Item) : Prop where
  coherent : Coherent s.records i
  requested : Requested s.plan i.failureId
  accepted : i.dispatchState = .accepted → AcceptedIn s.plan i.failureId

/-- What a worker holds. -/
def Held (s : Center) : Worker → Prop
  | .claimed f | .awaiting f => Requested s.plan f
  | .answered f ch => Warranted s f ch
  | .observing items => ∀ i ∈ items, Seen s i
  | .noting f ch rest => Warranted s f ch ∧ ∀ items ∈ rest, ∀ i ∈ items, Seen s i
  | _ => True

structure EvidenceInv (s : Center) : Prop extends DispatchInv s where
  coherent : ∀ i ∈ s.plan.items, Coherent s.records i
  held : ∀ w, Held s (s.workers w)
  inFlight_once : s.inFlight.Nodup
  inFlight_sent : ∀ f ∈ s.inFlight, f ∈ s.sent ∧ s.records f = none
  recorded_sent : ∀ {f r}, s.records f = some r → f ∈ s.sent

/-! ## Observation -/

section Observe

variable {s t : Center} {i : Item} {ch : Changes} {now : Int}

/-- The changes of an observation while it is under way. -/
structure Draft (s : Center) (i : Item) (ch : Changes) : Prop extends
    Warranted s i.failureId ch where
  kept : i.dispatchState = .accepted → ch.dispatchState ≠ some .unknown

theorem Draft.message (h : Draft s i ch) (m : Option (Option String)) :
    Draft s i { ch with message := m } :=
  ⟨⟨h.requested, h.silent, h.accepted, h.unaccepted, h.observed⟩, h.kept⟩

theorem Draft.unknown (h : Draft s i ch) (m : Option (Option String)) :
    Draft s i { ch with outcome := some .unknown, message := m } := by
  refine ⟨⟨h.requested, h.silent, h.accepted, h.unaccepted, ?_⟩, h.kept⟩
  rintro ⟨o, ho, terminal⟩
  obtain rfl := Option.some.inj ho
  cases terminal

theorem draft_checked (seen : Seen s i) : Draft s i (checked i now) := by
  unfold checked
  by_cases accepted : i.dispatchState = .accepted
  · rw [if_pos accepted]
    refine ⟨⟨seen.requested, fun _ => seen.accepted accepted, by simp, by simp, ?_⟩, by simp⟩
    rintro ⟨o, ho, -⟩
    cases ho
  · rw [if_neg accepted]
    refine ⟨⟨seen.requested, by simp, by simp, by simp, ?_⟩, fun h => absurd h accepted⟩
    rintro ⟨o, ho, terminal⟩
    obtain rfl := Option.some.inj ho
    cases terminal

theorem Draft.accept (h : Draft s i ch) {r : Retried}
    (recorded : s.records i.failureId = some r) :
    Draft s i (acceptedChanges r.retriedAt r.retriedTaskId ch) := by
  refine ⟨⟨h.requested, by simp [acceptedChanges], fun _ => ⟨r, recorded, rfl⟩,
    fun other => absurd rfl other, ?_⟩, by simp [acceptedChanges]⟩
  rintro ⟨o, ho, terminal⟩
  obtain rfl := Option.some.inj ho
  cases terminal

/-- The boundary of terminal evidence is the retry that the service has recorded. -/
theorem Draft.boundary (h : Draft s i ch) (seen : Seen s i) {b : Int}
    (hb : (ch.acceptedAt <|> i.acceptedAt) = some b) :
    ch.dispatchState ≠ some .unknown ∧ ∃ r, s.records i.failureId = some r ∧ r.retriedAt = b := by
  cases own : ch.acceptedAt with
  | some a =>
    obtain rfl : a = b := by simpa [own] using hb
    have accepted : ch.dispatchState = some .accepted := by
      by_contra other
      rw [h.unaccepted other] at own
      cases own
    obtain ⟨r, recorded, at'⟩ := h.accepted accepted
    rw [own] at at'
    exact ⟨by simp [accepted], r, recorded, (Option.some.inj at').symm⟩
  | none =>
    have there : i.acceptedAt = some b := by simpa [own] using hb
    have accepted : i.dispatchState = .accepted := by
      by_contra other
      rw [seen.coherent.unaccepted other] at there
      cases there
    obtain ⟨r, recorded, at'⟩ := seen.coherent.accepted accepted
    rw [there] at at'
    exact ⟨h.kept accepted, r, recorded, (Option.some.inj at').symm⟩

theorem Draft.judge (h : Draft s i ch) (seen : Seen s i) (event : StatusEvent) :
    Draft s i (judge i ch event) := by
  unfold Recovery.judge
  split
  · next timestamp b ht hb =>
    obtain ⟨known, r, recorded, rfl⟩ := h.boundary seen hb
    have decided (o : Outcome) (fresh : r.retriedAt ≤ timestamp) :
        Draft s i { ch with
          outcome := some o
          observedAt := some timestamp
          message := some none } :=
      ⟨⟨h.requested, h.silent, h.accepted, h.unaccepted,
        fun _ => ⟨known, r, timestamp, recorded, rfl, fresh⟩⟩, h.kept⟩
    split
    · next fresh =>
      split
      · exact decided .succeeded fresh.1
      · split
        · exact decided .failed fresh.1
        · exact h
    · exact h
  · exact h

theorem Draft.identify (h : Draft s i ch) (seen : Seen s i) (replacement : String)
    (reply : StatusReply) : Draft s i (identify i ch replacement reply).1 := by
  unfold Recovery.identify
  split
  · exact h
  · next event he =>
    split
    · exact h
    · split
      · exact h
      · exact h.judge seen event

theorem Draft.observeStatus (h : Draft s i ch) (seen : Seen s i)
    (status : Except Fault StatusReply) : Draft s i (observeStatus i ch status).1 := by
  unfold Recovery.observeStatus
  split
  · exact h.unknown _
  · split
    · exact h.unknown _
    · split
      · exact h
      · exact h.identify seen _ _

theorem Draft.observeUpstream (h : Draft s i ch) (seen : Seen s i) {e : Evidence}
    (attested : ∀ r, e.receipt = .ok r → r.marked i.receiptMarker → s.attests i.failureId r) :
    Draft s i (observeUpstream i ch e).1 := by
  unfold Recovery.observeUpstream
  split
  · exact h
  · split
    · exact h.observeStatus seen _
    · split
      · exact h
      · next receipt hr =>
        split
        · next retriedAt accepted marked =>
          have recorded := attested receipt hr marked
          simp only [Center.attests, accepted, Option.all_some, decide_eq_true_eq] at recorded
          exact (h.accept recorded).observeStatus seen _
        · exact h.message _

theorem Draft.explain {r : Changes × Option Fault} (h : Draft s i r.1) :
    Draft s i (explain r) := by
  unfold Recovery.explain
  split
  · exact h.message _
  · exact h

theorem Draft.expire (h : Draft s i ch) : Draft s i (expire i now ch) := by
  unfold Recovery.expire
  split
  · split
    · exact h.unknown _
    · exact h
  · exact h

/-- Whatever the upstream calls answer, an observation of a stale copy is warranted. -/
theorem warranted_observe (seen : Seen s i) {e : Evidence} {raised : Bool}
    (attested : ∀ r, e.receipt = .ok r → r.marked i.receiptMarker → s.attests i.failureId r)
    (h : observe i now e = some (ch, raised)) : Warranted s i.failureId ch := by
  unfold observe at h
  split at h
  · cases h
  · split at h
    · cases h
    · obtain ⟨rfl, -⟩ := Prod.mk.inj (Option.some.inj h)
      have start : Draft s i (checked i now) := draft_checked seen
      exact (start.observeUpstream seen attested).explain.expire.toWarranted

end Observe

/-- The response to the retry request, whenever it comes. -/
theorem warranted_recorded {s : Center} {f : String} {answer : Except String RetryReceipt}
    (requested : Requested s.plan f) (attested : ∀ r, answer = .ok r → s.attests f r) :
    Warranted s f (recorded f answer) := by
  have unknown (text : String) : Warranted s f
      { dispatchState := some .unknown, outcome := some .unknown,
        message := some (some text) } := by
    refine ⟨requested, by simp, by simp, by simp, ?_⟩
    rintro ⟨o, ho, terminal⟩
    obtain rfl := Option.some.inj ho
    cases terminal
  unfold recorded
  split
  · exact unknown _
  · next response =>
    split
    · next acceptedAt accepted =>
      have recorded := attested response rfl
      simp only [Center.attests, accepted, Option.all_some, decide_eq_true_eq] at recorded
      refine ⟨requested, by simp [acceptedChanges], fun _ => ⟨_, recorded, rfl⟩,
        fun other => absurd rfl other, ?_⟩
      rintro ⟨o, ho, terminal⟩
      obtain rfl := Option.some.inj ho
      cases terminal
    · exact unknown _

/-! ## Edits -/

section Edits

variable {s t : Center} {p q : Plan} {f : String} {now : Int} {i : Item} {ch : Changes}
  {records : String → Option Retried}

theorem Coherent.not_terminal (h : Coherent records i) (other : i.dispatchState ≠ .accepted) :
    i.outcome.terminal = false := by
  by_contra terminal
  exact other (h.observed (by simpa using terminal)).1

theorem dispatchState_of_isPending (pending : i.isPending = true) : i.dispatchState = .pending := by
  simpa [Item.isPending] using pending

theorem Coherent.block (h : Coherent records i) (pending : i.isPending = true)
    (e : PreflightError) : Coherent records (i.block e) ∧ Moved i (i.block e) := by
  have was := dispatchState_of_isPending pending
  have undecided := h.not_terminal (by simp [was])
  have unaccepted := h.unaccepted (by simp [was])
  unfold Item.block
  cases e.retryable with
  | true =>
    refine ⟨⟨by simp [DispatchState.requested], by simp, fun _ => unaccepted, ?_⟩, rfl, ?_, ?_⟩
    · simp [undecided]
    · rw [was]
      exact .stay _
    · simp
  | false =>
    refine ⟨⟨by simp [DispatchState.requested], by simp, fun _ => unaccepted, ?_⟩, rfl, ?_, ?_⟩
    · simp [undecided]
    · rw [was]
      exact .block
    · simp

theorem Coherent.claim (h : Coherent records i) (pending : i.isPending = true)
    (baseline : Option Int) : Coherent records (i.claim baseline now) ∧
      Moved i (i.claim baseline now) := by
  have was := dispatchState_of_isPending pending
  have undecided := h.not_terminal (by simp [was])
  refine ⟨⟨fun _ => rfl, by simp [Item.claim], fun _ => h.unaccepted (by simp [was]), ?_⟩, rfl, ?_,
    by simp [undecided]⟩
  · simp [Item.claim, Outcome.terminal]
  · rw [was]
    exact .claim

/-- A terminal outcome of an item that had none comes from the change. -/
theorem observed_update (open' : i.outcome.terminal = false) (warrant : Warranted s f ch)
    (terminal : (i.update ch).outcome.terminal = true) : ch.dispatchState ≠ some .unknown ∧
      ∃ r o, s.records f = some r ∧ (i.update ch).observedAt = some o ∧ r.retriedAt ≤ o := by
  cases own : ch.outcome with
  | none =>
    simp only [Item.update, own, Option.getD_none, open'] at terminal
    cases terminal
  | some o =>
    simp only [Item.update, own, Option.getD_some] at terminal
    obtain ⟨known, r, at', recorded, observed, fresh⟩ := warrant.observed ⟨o, own, terminal⟩
    exact ⟨known, r, at', recorded, by simp [Item.update, observed], fresh⟩

theorem Coherent.update (h : Coherent s.records i) (found : s.plan.item? f = some i)
    (open' : i.outcome.terminal = false)
    (allowed : ¬(ch.dispatchState = some .unknown ∧ i.dispatchState = .accepted))
    (warrant : Warranted s f ch) : Coherent s.records (i.update ch) ∧ Moved i (i.update ch) := by
  obtain rfl : i.failureId = f := Keyed.key_of_get? found
  have observed := observed_update open' warrant
  have outcome (terminal : i.outcome.terminal = true) : (i.update ch).outcome = i.outcome := by
    rw [open'] at terminal
    cases terminal
  cases said : ch.dispatchState with
  | none =>
    -- only a copy that was accepted leaves the dispatch state out
    obtain ⟨j, found', accepted⟩ := warrant.silent said
    obtain rfl : i = j := Option.some.inj (found.symm.trans found')
    have stays : (i.update ch).dispatchState = .accepted := by simp [Item.update, said, accepted]
    have at' : (i.update ch).acceptedAt = i.acceptedAt := by
      simp [Item.update, warrant.unaccepted (by simp [said])]
    refine ⟨⟨fun _ => h.requested (by simp [DispatchState.requested, accepted]), fun _ => ?_,
      fun other => absurd stays other, fun terminal => ⟨stays, (observed terminal).2⟩⟩, rfl, ?_,
      outcome⟩
    · rw [at']
      exact h.accepted accepted
    · rw [stays, accepted]
      exact .stay _
  | some a =>
    obtain ⟨j, found', requested⟩ := warrant.requested
    obtain rfl : i = j := Option.some.inj (found.symm.trans found')
    cases a with
    | unknown =>
      have other : i.dispatchState ≠ .accepted := fun accepted => allowed ⟨said, accepted⟩
      have now' : (i.update ch).dispatchState = .unknown := by
        simp [Item.update, said, Acceptance.dispatchState]
      refine ⟨⟨fun _ => h.requested requested, by simp [now'], fun _ => ?_,
        fun terminal => absurd said (observed terminal).1⟩, rfl, ?_, outcome⟩
      · simp [Item.update, warrant.unaccepted (by simp [said]), h.unaccepted other]
      · rw [now']
        cases was : i.dispatchState with
        | unknown => exact .stay _
        | dispatching => exact .lose
        | accepted => exact absurd was other
        | pending => simp [was, DispatchState.requested] at requested
        | blocked => simp [was, DispatchState.requested] at requested
    | accepted =>
      have now' : (i.update ch).dispatchState = .accepted := by
        simp [Item.update, said, Acceptance.dispatchState]
      obtain ⟨r, recorded, at'⟩ := warrant.accepted said
      refine ⟨⟨fun _ => h.requested requested, fun _ => ⟨r, recorded, by simp [Item.update, at']⟩,
        fun different => absurd now' different, fun terminal => ⟨now', (observed terminal).2⟩⟩,
        rfl, ?_, outcome⟩
      rw [now']
      cases was : i.dispatchState with
      | unknown => exact .resolve
      | dispatching => exact .accept
      | accepted => exact .stay _
      | pending => simp [was, DispatchState.requested] at requested
      | blocked => simp [was, DispatchState.requested] at requested

/-- A plan before and after an edit. -/
structure Evolves (records : String → Option Retried) (p q : Plan) : Prop where
  moved : List.Forall₂ Moved p.items q.items
  coherent : ∀ i ∈ q.items, Coherent records i

theorem evolves_of_items (coherent : ∀ i ∈ p.items, Coherent records i)
    (items : q.items = p.items) : Evolves records p q := by
  refine ⟨?_, items ▸ coherent⟩
  rw [items]
  exact List.forall₂_same.mpr fun i _ => .refl i

theorem evolves_amend (coherent : ∀ i ∈ p.items, Coherent records i) {g : Item → Item}
    (items : q.items = p.amend f g)
    (h : ∀ i, p.item? f = some i → Coherent records (g i) ∧ Moved i (g i)) :
    Evolves records p q := by
  refine ⟨?_, ?_⟩ <;> rw [items]
  · exact Keyed.forall₂_amend Moved.refl fun i found => (h i found).2
  · exact Keyed.forall_mem_amend coherent fun i found => (h i found).1

theorem evolves_change {edit : Option Plan} (coherent : ∀ i ∈ s.plan.items, Coherent records i)
    (h : ∀ q, edit = some q → Evolves records s.plan q) :
    Evolves records s.plan (s.change edit).plan := by
  cases edit with
  | none => exact evolves_of_items coherent rfl
  | some q => exact h q rfl

theorem evolves_itemChange (coherent : ∀ i ∈ s.plan.items, Coherent s.records i)
    (warrant : Warranted s f ch) (h : s.plan.itemChange f ch = some q) :
    Evolves s.records s.plan q := by
  obtain ⟨i, found, open', allowed, rfl⟩ := itemChange_cases h
  refine evolves_amend coherent rfl fun j found' => ?_
  obtain rfl : i = j := Option.some.inj (found.symm.trans found')
  exact (coherent i (Keyed.mem_of_get? found)).update found open' allowed warrant

theorem evolves_step (inv : EvidenceInv s) {l : Step} (taken : next s l = some t) :
    Evolves s.records s.plan t.plan := by
  have held {w : Nat} {x : Worker} (here : s.workers w = x) : Held s x := here ▸ inv.held w
  cases taken_of_next taken with
  | controlled h =>
    obtain ⟨-, r, acted, rfl⟩ := control_cases h
    cases acted <;> exact evolves_of_items inv.coherent rfl
  | block here =>
    refine evolves_change inv.coherent fun q hq => ?_
    obtain ⟨i, found, -, pending, rfl⟩ := block_cases hq
    refine evolves_amend inv.coherent rfl fun j found' => ?_
    obtain rfl : i = j := Option.some.inj (found.symm.trans found')
    exact (inv.coherent i (Keyed.mem_of_get? found)).block pending _
  | claim here h =>
    obtain ⟨i, found, -, -, pending, -, -, rfl⟩ := claim_cases h
    refine evolves_amend inv.coherent rfl fun j found' => ?_
    obtain rfl : i = j := Option.some.inj (found.symm.trans found')
    exact (inv.coherent i (Keyed.mem_of_get? found)).claim pending _
  | record here =>
    exact evolves_change inv.coherent fun q hq => evolves_itemChange inv.coherent (held here) hq
  | note here =>
    exact evolves_change inv.coherent fun q hq => evolves_itemChange inv.coherent (held here).1 hq
  | settle here =>
    refine evolves_change inv.coherent fun q hq => ?_
    obtain ⟨-, -, ⟨-, rfl⟩ | ⟨-, rfl⟩⟩ := settle_cases hq <;>
      exact evolves_of_items inv.coherent rfl
  | _ => exact evolves_of_items inv.coherent rfl

end Edits

/-! ## Runs -/

section Step

variable {s t : Center} {w : Nat} {x : Worker} {f : String} {i : Item} {ch : Changes}

theorem Coherent.mono {records records' : String → Option Retried} (h : Coherent records i)
    (mono : ∀ {f r}, records f = some r → records' f = some r) : Coherent records' i := by
  refine ⟨h.requested, fun accepted => ?_, h.unaccepted, fun terminal => ?_⟩
  · obtain ⟨r, recorded, at'⟩ := h.accepted accepted
    exact ⟨r, mono recorded, at'⟩
  · obtain ⟨accepted, r, o, recorded, rest⟩ := h.observed terminal
    exact ⟨accepted, r, o, mono recorded, rest⟩

/-- What was known before a step is known after it. -/
structure Remembers (s t : Center) : Prop where
  requested : ∀ {f}, Requested s.plan f → Requested t.plan f
  accepted : ∀ {f}, AcceptedIn s.plan f → AcceptedIn t.plan f
  records : ∀ {f r}, s.records f = some r → t.records f = some r

theorem remembers_of_moved (moved : List.Forall₂ Moved s.plan.items t.plan.items)
    (records : ∀ {f r}, s.records f = some r → t.records f = some r) : Remembers s t := by
  refine ⟨?_, ?_, records⟩
  · rintro f ⟨i, found, requested⟩
    obtain ⟨j, found', move⟩ := Keyed.get?_of_forall₂ moved found fun _ _ => Moved.same
    exact ⟨j, found', move.dispatch.requested requested⟩
  · rintro f ⟨i, found, accepted⟩
    obtain ⟨j, found', move⟩ := Keyed.get?_of_forall₂ moved found fun _ _ => Moved.same
    exact ⟨j, found', move.dispatch.accepted accepted⟩

theorem Warranted.mono (h : Warranted s f ch) (rem : Remembers s t) : Warranted t f ch := by
  refine ⟨rem.requested h.requested, fun said => rem.accepted (h.silent said), fun said => ?_,
    h.unaccepted, fun terminal => ?_⟩
  · obtain ⟨r, recorded, at'⟩ := h.accepted said
    exact ⟨r, rem.records recorded, at'⟩
  · obtain ⟨known, r, o, recorded, rest⟩ := h.observed terminal
    exact ⟨known, r, o, rem.records recorded, rest⟩

theorem Seen.mono (h : Seen s i) (rem : Remembers s t) : Seen t i :=
  ⟨h.coherent.mono rem.records, rem.requested h.requested,
    fun accepted => rem.accepted (h.accepted accepted)⟩

theorem Held.mono (rem : Remembers s t) (h : Held s x) : Held t x := by
  cases x with
  | claimed f => exact rem.requested h
  | awaiting f => exact rem.requested h
  | answered f ch => exact Warranted.mono h rem
  | observing items => exact fun i hi => (h i hi).mono rem
  | noting f ch rest => exact ⟨h.1.mono rem, fun items hr i hi => (h.2 items hr i hi).mono rem⟩
  | _ => trivial

/-- Only a request in flight changes what the service has recorded, and only once. -/
theorem records_step (inv : EvidenceInv s) {l : Step} (taken : next s l = some t) {f : String}
    {r : Retried} (recorded : s.records f = some r) : t.records f = some r := by
  cases taken_of_next taken with
  | @retry g r' arrived =>
    have other : f ≠ g := by
      rintro rfl
      rw [(inv.inFlight_sent f arrived).2] at recorded
      cases recorded
    simpa [other] using recorded
  | block here => exact recorded
  | _ => exact recorded

/-- What the worker that moves holds. -/
theorem held_step (inv : EvidenceInv s) (rem : Remembers s t) {l : Step}
    (taken : next s l = some t) (w : Nat) : Held t (t.workers w) := by
  have held {w : Nat} {x : Worker} (here : s.workers w = x) : Held s x := here ▸ inv.held w
  have moved {v : Nat} {x : Worker} (workers : t.workers = Function.update s.workers v x)
      (new : Held t x) : Held t (t.workers w) := by
    by_cases same : w = v
    · subst same
      rwa [workers, Function.update_self]
    · rw [workers, Function.update_of_ne same]
      exact (inv.held w).mono rem
  cases taken_of_next taken with
  | clock later => exact (inv.held w).mono rem
  | refused h => exact inv.held w
  | controlled h => exact (inv.held w).mono rem
  | due here => exact moved rfl (by cases s.plan.dispatchTarget <;> trivial)
  | preflight verdict here => exact moved rfl trivial
  | block here => exact moved rfl trivial
  | unclaimed here => exact moved rfl trivial
  | @claim v version f baseline q here h =>
    obtain ⟨i, found, -, -, -, -, -, rfl⟩ := claim_cases h
    refine moved rfl ⟨i.claim baseline s.clock, ?_, rfl⟩
    refine (item?_amend (g := Item.claim baseline s.clock) rfl (fun _ => rfl) f).trans ?_
    rw [if_pos rfl, found, Option.map_some]
  | send here => exact moved rfl (Held.mono (x := .claimed _) rem (held here))
  | retry r arrived => exact (inv.held w).mono rem
  | respond here attested => exact moved rfl (warranted_recorded (held here) attested)
  | record here => exact moved rfl trivial
  | load here =>
    refine moved rfl fun i hi => ?_
    obtain ⟨mem, seen⟩ := mem_candidates hi
    have found := Keyed.get?_of_mem inv.unique mem
    have requested : i.dispatchState.requested = true := by
      simpa [DispatchState.requested] using (Bool.and_eq_true_iff.mp seen).1
    exact ⟨inv.coherent i mem, ⟨i, found, requested⟩, fun accepted => ⟨i, found, accepted⟩⟩
  | skip e here =>
    have seen := held here
    exact moved rfl fun i hi => (seen i (List.mem_cons_of_mem _ hi)).mono rem
  | @observe v now i rest e ch raised here attested h =>
    have seen := held here
    have warrant := warranted_observe (seen i List.mem_cons_self) attested h
    refine moved rfl ⟨warrant.mono rem, fun items hr j hj => ?_⟩
    cases raised with
    | true => cases hr
    | false =>
      obtain rfl := Option.some.inj hr
      exact (seen j (List.mem_cons_of_mem _ hj)).mono rem
  | @note v f ch rest here =>
    refine moved rfl ?_
    cases rest with
    | none => trivial
    | some items => exact fun i hi => ((held here).2 items rfl i hi).mono rem
  | settle here => exact moved rfl trivial
  | fail w => exact moved rfl trivial

theorem EvidenceInv.step (inv : EvidenceInv s) {l : Step} (taken : next s l = some t) :
    EvidenceInv t := by
  have evolves := evolves_step inv taken
  have rem : Remembers s t := remembers_of_moved evolves.moved (records_step inv taken)
  have dispatch := inv.toDispatchInv.step taken
  have coherent (i : Item) (hi : i ∈ t.plan.items) : Coherent t.records i :=
    (evolves.coherent i hi).mono rem.records
  have held := held_step inv rem taken
  cases taken_of_next taken with
  | @send w f here =>
    -- the request is new, so the service has not recorded anything for it
    have fresh : f ∉ s.sent := by
      have tracked := inv.tracks w
      rw [here] at tracked
      exact tracked.2
    refine ⟨dispatch, coherent, held, ?_, ?_, ?_⟩
    · exact List.nodup_cons.mpr ⟨fun old => fresh (inv.inFlight_sent f old).1, inv.inFlight_once⟩
    · intro g hg
      rcases List.mem_cons.mp hg with rfl | hg
      · refine ⟨List.mem_append_right _ List.mem_cons_self, ?_⟩
        by_contra recorded
        obtain ⟨r, hr⟩ := Option.ne_none_iff_exists'.mp recorded
        exact fresh (inv.recorded_sent hr)
      · obtain ⟨sent, unrecorded⟩ := inv.inFlight_sent g hg
        exact ⟨List.mem_append_left _ sent, unrecorded⟩
    · exact fun recorded => List.mem_append_left _ (inv.recorded_sent recorded)
  | @retry f r arrived =>
    refine ⟨dispatch, coherent, held, inv.inFlight_once.erase f, ?_, ?_⟩
    · intro g hg
      obtain ⟨other, hg⟩ := inv.inFlight_once.mem_erase_iff.mp hg
      obtain ⟨sent, unrecorded⟩ := inv.inFlight_sent g hg
      exact ⟨sent, by simpa [other] using unrecorded⟩
    · intro g r' recorded
      by_cases same : g = f
      · exact same ▸ (inv.inFlight_sent f arrived).1
      · exact inv.recorded_sent (by simpa [same] using recorded)
  | _ => exact ⟨dispatch, coherent, held, inv.inFlight_once, inv.inFlight_sent, inv.recorded_sent⟩

end Step

theorem EvidenceInv.start {requestId : String} {request : PreviewRequest}
    {baseline : String → Option Int} {created clock nextPollAt : Int} :
    EvidenceInv (start (create requestId request baseline created) clock nextPollAt) := by
  refine ⟨.start, fun i hi => ?_, fun _ => trivial, .nil, ?_, ?_⟩
  · obtain ⟨n, hn, rfl⟩ := List.mem_mapIdx.mp hi
    exact ⟨by simp [DispatchState.requested], by simp, fun _ => rfl, by simp [Outcome.terminal]⟩
  all_goals simp [Recovery.start]

/-! ## The report -/

theorem countP_add_countP_le {α : Type*} {p q r : α → Bool} {l : List α}
    (apart : ∀ a ∈ l, p a = true → q a = false)
    (covered : ∀ a ∈ l, (p a || q a) = true → r a = true) :
    l.countP p + l.countP q ≤ l.countP r := by
  induction l with
  | nil => simp
  | cons a l ih =>
    rw [List.forall_mem_cons] at apart covered
    have rest := ih apart.2 covered.2
    have first := apart.1
    have here := covered.1
    simp only [List.countP_cons]
    cases hp : p a <;> cases hq : q a <;> simp_all <;> omega

/-- The counts of a report add up. -/
structure Balanced (r : Report) : Prop where
  selected : r.requested + r.notDispatched = r.selected
  observed : r.observedSuccess + r.observedFailure ≤ r.accepted
  accepted : r.accepted ≤ r.requested

theorem balanced_report {p : Plan} {records : String → Option Retried}
    (coherent : ∀ i ∈ p.items, Coherent records i) (now : Int) : Balanced (p.report now) := by
  have accepted (i : Item) (hi : i ∈ p.items) (at' : i.acceptedAt.isSome = true) :
      i.dispatchState = .accepted := by
    by_contra other
    rw [(coherent i hi).unaccepted other] at at'
    cases at'
  refine ⟨?_, countP_add_countP_le ?_ ?_, List.countP_mono_left fun i hi at' => ?_⟩
  · show p.items.countP _ + p.items.countP _ = p.items.length
    rw [p.items.length_eq_countP_add_countP fun i => i.requestedAt.isSome]
    congr 2
    funext i
    cases i.requestedAt <;> rfl
  · intro i _ succeeded
    have : i.outcome = .succeeded := by simpa using succeeded
    simp [this]
  · intro i hi terminal
    obtain ⟨accepted, -⟩ := (coherent i hi).observed terminal
    obtain ⟨r, -, at'⟩ := (coherent i hi).accepted accepted
    simp [at']
  · exact (coherent i hi).requested (by simp [DispatchState.requested, accepted i hi at'])

/-! ## Every run -/

/-- A terminal outcome rests on an accepted request and on later evidence. -/
def Evident (i : Item) : Prop :=
  i.dispatchState = .accepted ∧ i.requestedAt.isSome = true ∧
    ∃ a o, i.acceptedAt = some a ∧ i.observedAt = some o ∧ a ≤ o

/-- What is never taken back from an item. -/
structure Lasting (i j : Item) : Prop where
  accepted : i.dispatchState = .accepted → j.dispatchState = .accepted
  outcome : i.outcome.terminal = true → j.outcome = i.outcome

theorem Coherent.evident {records : String → Option Retried} {i : Item} (h : Coherent records i)
    (terminal : i.outcome.terminal = true) : Evident i := by
  obtain ⟨accepted, r, o, recorded, observed, fresh⟩ := h.observed terminal
  obtain ⟨r', recorded', at'⟩ := h.accepted accepted
  obtain rfl : r = r' := Option.some.inj (recorded.symm.trans recorded')
  exact ⟨accepted, h.requested (by simp [DispatchState.requested, accepted]), _, o, at', observed,
    fresh⟩

theorem Lasting.step {i j k : Item} (h : Lasting i j) (move : Moved j k) : Lasting i k := by
  refine ⟨fun accepted => move.dispatch.accepted (h.accepted accepted), fun terminal => ?_⟩
  have same := h.outcome terminal
  exact (move.outcome (same ▸ terminal)).trans same

theorem lasting_run {s t : Center} (inv : EvidenceInv s) {ks : List Step}
    (run : machine.exec s ks = some t) {f : String} {i : Item} (found : s.plan.item? f = some i) :
    ∃ j, t.plan.item? f = some j ∧ Lasting i j := by
  refine (Machine.invariant
    (I := fun u => EvidenceInv u ∧ ∃ j, u.plan.item? f = some j ∧ Lasting i j)
    (fun u l v inv taken => ?_) ⟨inv, i, found, fun h => h, fun _ => rfl⟩ run).2
  obtain ⟨inv, j, found', lasting⟩ := inv
  obtain ⟨k, found'', move⟩ :=
    Keyed.get?_of_forall₂ (evolves_step inv taken).moved found' fun _ _ => Moved.same
  exact ⟨inv.step taken, k, found'', lasting.step move⟩

/-- Whatever order responses and observations commit in, items move forward only, what is accepted
or decided stays so, every decided item is evident and every report adds up. -/
theorem recovery_evidence_accumulates (requestId : String) (request : PreviewRequest)
    (baseline : String → Option Int) (created clock nextPollAt : Int) (ls : List Step) (s : Center)
    (run : machine.exec
      (start (create requestId request baseline created) clock nextPollAt) ls = some s) :
    (∀ i ∈ s.plan.items, i.outcome.terminal = true → Evident i) ∧
      (∀ now, Balanced (s.plan.report now)) ∧
      (∀ l t, next s l = some t → List.Forall₂ Moved s.plan.items t.plan.items) ∧
      ∀ ks t, machine.exec s ks = some t → ∀ f i, s.plan.item? f = some i →
        ∃ j, t.plan.item? f = some j ∧ Lasting i j := by
  have inv : EvidenceInv s :=
    Machine.invariant (fun _ _ _ inv taken => inv.step taken) EvidenceInv.start run
  exact ⟨fun i hi terminal => (inv.coherent i hi).evident terminal,
    balanced_report inv.coherent, fun l t taken => (evolves_step inv taken).moved,
    fun ks t later f i found => lasting_run inv later found⟩

/-- The receipt and the status of the retried task, as an observer finds them. -/
def completedEvidence : Evidence where
  service := .ok ()
  receipt := .ok ⟨some "a", some "retried", some (seconds 1), some "t",
    some "[studio-recovery:r:0] nightly"⟩
  status := .ok ⟨some "t", some ⟨some "t", some (seconds 5), "completed"⟩⟩

/-- An observer finds the receipt of a request whose response is lost; the failure of the request
is recorded after the outcome. -/
def lateFailure : List Step :=
  [.control (.plain .batch 0), .due 0, .preflight 0 (.ok none), .commit 0, .send 0,
    .retry "a" ⟨seconds 1, some "t"⟩, .clock (seconds 70), .due 1,
    .preflight 1 (.error (.federation "Service is unreachable." true)), .commit 1, .load 1,
    .observe 1 (seconds 70) completedEvidence, .note 1, .respond 0 (.error "ReadTimeout"),
    .record 0]

/-- Its report: one failure was requested, accepted and seen to succeed, the other not asked for. -/
def lateReport : Report where
  selected := 2
  requested := 1
  accepted := 1
  observedSuccess := 1
  observedFailure := 0
  unknownAcceptance := 0
  unknownOutcome := 0
  awaitingOutcome := 0
  notDispatched := 1
  repeatedFailures := 0
  cohortRecovery := none

theorem recovery_evidence_accumulates_of_lateFailure :
    ∃ s, machine.exec (start (create "r" twoFailures (fun _ => none) 0) 0 0) lateFailure =
        some s ∧
      s.plan.items.map (fun i => (i.dispatchState, i.outcome, i.acceptedAt, i.observedAt)) =
        [(.accepted, .succeeded, some (seconds 1), some (seconds 5)),
          (.pending, .notRequested, none, none)] ∧
      s.plan.report (seconds 70) = lateReport ∧
      (∀ i ∈ s.plan.items, i.outcome.terminal = true → Evident i) ∧
      (∀ now, Balanced (s.plan.report now)) ∧
      (∀ l t, next s l = some t → List.Forall₂ Moved s.plan.items t.plan.items) ∧
      ∀ ks t, machine.exec s ks = some t → ∀ f i, s.plan.item? f = some i →
        ∃ j, t.plan.item? f = some j ∧ Lasting i j := by
  have seen :
      (machine.exec (start (create "r" twoFailures (fun _ => none) 0) 0 0) lateFailure).any
        (fun s => (s.plan.items.map fun i =>
            (i.dispatchState, i.outcome, i.acceptedAt, i.observedAt)) =
          [(.accepted, .succeeded, some (seconds 1), some (seconds 5)),
            (.pending, .notRequested, none, none)] ∧
          s.plan.report (seconds 70) = lateReport) := by
    decide +kernel
  obtain ⟨s, run, facts⟩ := (Option.any_eq_true _ _).mp seen
  obtain ⟨items, report⟩ := of_decide_eq_true facts
  exact ⟨s, run, items, report, recovery_evidence_accumulates "r" twoFailures (fun _ => none) 0 0 0
    lateFailure s run⟩

end Relayna.Studio.Recovery
