import Mathlib.Data.List.Perm.Basic
import Relayna.Foundation.Transition

/-!
# `run_bounded_iterator`

One call of `run_bounded_iterator` and the tasks it has created. The call runs from one `await` to
the next: for a permit, for `anext(iterator)`, in `asyncio.sleep(0)` and in the `gather` of its
`except` or of its `finally`. In between the event loop starts tasks, handlers end and the
`record_completion` callbacks run, in the order in which the tasks have ended.

`in_flight` is what is `created`, `running` or has a callback left. The callback of a task is older
than that of a `gather`, so a `gather` returns once `in_flight` is empty. `asked`, `taken` and
`given` say how often `anext` has been called, what it has returned and what the handler has been
called with; no step reads them.
-/
namespace Relayna.Consumer.BoundedIterator

open Transition

/-- The exceptions other than `CancelledError`. -/
inductive Error (ε : Type) where
  | timeoutError
  | valueError
  | other (e : ε)
  deriving DecidableEq, Repr

/-- How a task or `run_bounded_iterator` itself ends. -/
inductive Outcome (ε : Type) where
  | returned
  | raised (e : Error ε)
  | cancelled
  deriving DecidableEq, Repr

/-- What `anext(iterator)` comes back with. -/
inductive Reply (ι ε : Type) where
  | item (x : ι)
  | stopAsyncIteration
  | raised (e : Error ε)
  | cancelled
  deriving DecidableEq, Repr

/-- What the call is suspended in, or how it has ended. An `interrupted` call is about to find
`CancelledError` raised in one of the first three. -/
inductive Place (ε : Type) where
  | acquiring
  | asking
  | sleeping
  | interrupted (holding : Bool)
  | cancelling
  | gathering (exit : Outcome ε)
  | gatheringCancelled
  | done (outcome : Outcome ε)
  deriving DecidableEq, Repr

structure Call (ι ε : Type) where
  place : Place ε
  stop : Bool
  permits : Nat
  created : List ι
  running : List ι
  callbacks : List (Outcome ε)
  firstError : Option (Error ε)
  cancelSent : Bool
  asked : Nat
  taken : List ι
  given : List ι
  deriving DecidableEq, Repr

variable {ι ε : Type}

/-- `task.exception()`, when there is one. -/
def Outcome.exception : Outcome ε → Option (Error ε)
  | .raised e => some e
  | _ => none

namespace Call

/-- The length of `in_flight`. -/
def inFlight (c : Call ι ε) : Nat := c.created.length + c.running.length + c.callbacks.length

def release (c : Call ι ε) : Call ι ε := { c with permits := c.permits + 1 }

/-- How the call ends once its `finally` has awaited the tasks. -/
def conclude (c : Call ι ε) (exit : Outcome ε) : Outcome ε :=
  match c.firstError with
  | some e => .raised e
  | none => exit

/-- The `finally`. -/
def leave (c : Call ι ε) (exit : Outcome ε) : Call ι ε :=
  { c with place := if c.inFlight = 0 then .done (c.conclude exit) else .gathering exit }

/-- The `except asyncio.CancelledError`. -/
def cancelTasks (c : Call ι ε) : Call ι ε :=
  { c with
    cancelSent := true
    place := if c.inFlight = 0 then .done (c.conclude .cancelled) else .cancelling }

/-- From the end of `semaphore.acquire()` on. -/
def acquired (c : Call ι ε) : Call ι ε :=
  match c.firstError with
  | some e => c.release.leave (.raised e)
  | none =>
    if c.stop then c.release.leave .returned
    else { c with place := .asking, asked := c.asked + 1 }

/-- From the head of the `while` on. -/
def loop (c : Call ι ε) : Call ι ε :=
  if c.stop then c.leave .returned
  else if 0 < c.permits then { c with permits := c.permits - 1 }.acquired
  else { c with place := .acquiring }

/-- From the end of `anext(iterator)` on. -/
def answered (c : Call ι ε) : Reply ι ε → Call ι ε
  | .item x => { c with created := c.created ++ [x], taken := c.taken ++ [x] }.loop
  | .stopAsyncIteration => c.release.leave .returned
  | .raised .timeoutError =>
    if c.inFlight = 0 then c.release.leave (.raised .timeoutError)
    else { c.release with place := .sleeping }
  | .raised e => c.release.leave (.raised e)
  | .cancelled => c.release.cancelTasks

/-- The call goes on after what it was suspended in; an answer of the iterator is not such a
step. -/
def resume (c : Call ι ε) : Option (Call ι ε) :=
  match c.place with
  | .acquiring =>
    if 0 < c.permits then some { c with permits := c.permits - 1 }.acquired else none
  | .sleeping => some c.loop
  | .interrupted holding => some (if holding then c.release else c).cancelTasks
  | .cancelling =>
    if c.inFlight = 0 then some { c with place := .done (c.conclude .cancelled) } else none
  | .gathering exit =>
    if c.inFlight = 0 then some { c with place := .done (c.conclude exit) } else none
  | .gatheringCancelled =>
    if c.inFlight = 0 then some { c with place := .done .cancelled } else none
  | .asking | .done _ => none

/-- The task that awaits the call is cancelled. A `gather` passes this on to its tasks and
raises `CancelledError` when the last of them has ended. -/
def cancel (c : Call ι ε) : Option (Call ι ε) :=
  match c.place with
  | .acquiring | .sleeping => some { c with place := .interrupted false }
  | .asking => some { c with place := .interrupted true }
  | .interrupted _ => some c
  | .cancelling | .gatheringCancelled => some { c with cancelSent := true }
  | .gathering _ => some { c with cancelSent := true, place := .gatheringCancelled }
  | .done _ => none

/-- The place of a call that has just been made. -/
def start (concurrency : Int) (stop : Bool) : Call ι ε :=
  let c : Call ι ε := ⟨.acquiring, stop, concurrency.toNat, [], [], [], none, false, 0, [], []⟩
  if concurrency < 1 then { c with place := .done (.raised .valueError) } else c.loop

end Call

/-- `start` runs a task up to its call of the handler, `finish` ends a handler and with it the
task, `drop` ends a task that has been cancelled before it started, and `record` is
`record_completion`. -/
inductive Label (ι ε : Type) where
  | setStop (stop : Bool)
  | resume
  | answer (reply : Reply ι ε)
  | start (k : Nat)
  | finish (k : Nat) (outcome : Outcome ε)
  | drop (k : Nat)
  | record
  | cancel
  deriving DecidableEq, Repr

def boundedIterator : Machine (Call ι ε) (Label ι ε) where
  next c l := match l with
    | .setStop stop => some { c with stop := stop }
    | .resume => c.resume
    | .answer reply => match c.place with
      | .asking => some (c.answered reply)
      | _ => none
    | .start k => if c.cancelSent then none else c.created[k]?.map fun x =>
      { c with
        created := c.created.eraseIdx k
        running := c.running ++ [x]
        given := c.given ++ [x] }
    | .finish k outcome => c.running[k]?.map fun _ =>
      { c.release with
        running := c.running.eraseIdx k
        callbacks := c.callbacks ++ [outcome] }
    | .drop k => if c.cancelSent then c.created[k]?.map fun _ =>
        { c with
          created := c.created.eraseIdx k
          callbacks := c.callbacks ++ [.cancelled] }
      else none
    | .record => match c.callbacks with
      | [] => none
      | outcome :: rest => some
        { c with callbacks := rest, firstError := c.firstError.or outcome.exception }
    | .cancel => c.cancel

/-- Everything the call can do when it goes on and has not been cancelled. -/
inductive Call.Goes (c : Call ι ε) : Call ι ε → Prop where
  | done (exit : Outcome ε) (plain : exit ≠ .cancelled) (empty : c.inFlight = 0) :
      Goes c { c with place := .done (c.conclude exit) }
  | gathering (exit : Outcome ε) (plain : exit ≠ .cancelled) (busy : c.inFlight ≠ 0) :
      Goes c { c with place := .gathering exit }
  | acquiring (full : c.permits = 0) : Goes c { c with place := .acquiring }
  | asking (clear : c.firstError = none) (free : 0 < c.permits) :
      Goes c { c with place := .asking, permits := c.permits - 1, asked := c.asked + 1 }

section Goes

variable {c : Call ι ε}

theorem Call.leave_goes (exit : Outcome ε) (plain : exit ≠ .cancelled) :
    c.Goes (c.leave exit) := by
  unfold leave
  split
  · next empty => exact .done exit plain empty
  · next busy => exact .gathering exit plain busy

theorem Call.acquired_goes (free : 0 < c.permits) :
    c.Goes { c with permits := c.permits - 1 }.acquired := by
  have released : { c with permits := c.permits - 1 }.release = c := by
    simp only [release, Nat.sub_add_cancel free]
  unfold acquired
  split
  · rw [released]
    exact leave_goes _ nofun
  · next clear =>
    split
    · rw [released]
      exact leave_goes _ nofun
    · exact .asking clear free

theorem Call.loop_goes : c.Goes c.loop := by
  unfold loop
  split
  · exact leave_goes _ nofun
  · split
    · next free => exact acquired_goes free
    · next full => exact .acquiring (Nat.eq_zero_of_not_pos full)

end Goes

/-- The permit that goes with a request for an item. -/
def Place.held : Place ε → Nat
  | .asking => 1
  | .interrupted true => 1
  | _ => 0

/-- A step that cancels the call, be it from outside or from the iterator. -/
def Label.cancels : Label ι ε → Bool
  | .cancel | .answer .cancelled => true
  | _ => false

/-- The places of a call that nobody has cancelled. -/
def Call.Plain (c : Call ι ε) : Prop :=
  match c.place with
  | .acquiring | .asking | .sleeping => True
  | .gathering exit => exit ≠ .cancelled
  | .done outcome => c.inFlight = 0 ∧ ∃ exit, exit ≠ .cancelled ∧ outcome = c.conclude exit
  | .interrupted _ | .cancelling | .gatheringCancelled => False

/-- Every permit is free, with a task or with a request, and every item taken is with its handler,
past it or with a task that has not started. -/
structure Call.Kept (concurrency : Nat) (c : Call ι ε) : Prop where
  permits : c.permits + c.created.length + c.running.length + c.place.held = concurrency
  items : (c.given ++ c.created).Perm c.taken
  uncancelled : c.cancelSent = false
  plain : c.Plain

section Kept

variable {n : Nat} {c d : Call ι ε}

theorem Call.Goes.kept (h : c.Goes d)
    (permits : c.permits + c.created.length + c.running.length = n)
    (items : (c.given ++ c.created).Perm c.taken) (uncancelled : c.cancelSent = false) :
    d.Kept n := by
  cases h with
  | done exit plain empty => exact ⟨permits, items, uncancelled, empty, exit, plain, rfl⟩
  | gathering exit plain busy => exact ⟨permits, items, uncancelled, plain⟩
  | acquiring full => exact ⟨permits, items, uncancelled, trivial⟩
  | asking clear free =>
    refine ⟨?_, items, uncancelled, trivial⟩
    simp only [Place.held]
    omega

/-- Nothing but the tasks, the callbacks and the first failure has changed, and only while there
were tasks or callbacks. -/
theorem Call.Plain.of_busy (h : c.Plain) (place : d.place = c.place) (busy : c.inFlight ≠ 0) :
    d.Plain := by
  unfold Call.Plain at h ⊢
  rw [place]
  split <;> simp_all

theorem Call.inFlight_ne_zero_of_created {x : ι} (h : x ∈ c.created) : c.inFlight ≠ 0 := by
  have := List.length_pos_of_mem h
  unfold inFlight
  omega

theorem Call.inFlight_ne_zero_of_running {x : ι} (h : x ∈ c.running) : c.inFlight ≠ 0 := by
  have := List.length_pos_of_mem h
  unfold inFlight
  omega

theorem length_eraseIdx_of_some {l : List ι} {k : Nat} {x : ι} (h : l[k]? = some x) :
    (l.eraseIdx k).length + 1 = l.length := by
  obtain ⟨hk, -⟩ := List.getElem?_eq_some_iff.mp h
  rw [List.length_eraseIdx_of_lt hk]
  omega

theorem perm_eraseIdx_of_some {l : List ι} {k : Nat} {x : ι} (h : l[k]? = some x) :
    (x :: l.eraseIdx k).Perm l := by
  obtain ⟨hk, rfl⟩ := List.getElem?_eq_some_iff.mp h
  exact List.getElem_cons_eraseIdx_perm hk

theorem Call.Kept.resume (h : c.Kept n) (hd : c.resume = some d) : d.Kept n := by
  obtain ⟨permits, items, uncancelled, plain⟩ := h
  unfold Call.resume at hd
  unfold Call.Plain at plain
  split at hd <;> rename_i here <;> rw [here] at plain <;> simp only [here, Place.held] at permits
  · split at hd
    · next free =>
      obtain rfl := Option.some.inj hd
      exact (Call.acquired_goes free).kept permits items uncancelled
    · cases hd
  · obtain rfl := Option.some.inj hd
    exact Call.loop_goes.kept permits items uncancelled
  · exact plain.elim
  · exact plain.elim
  · split at hd
    · next exit empty =>
      obtain rfl := Option.some.inj hd
      exact (Call.Goes.done exit plain empty).kept permits items uncancelled
    · cases hd
  · exact plain.elim
  · cases hd
  · cases hd

theorem Call.Kept.answered (h : c.Kept n) (here : c.place = .asking) {reply : Reply ι ε}
    (plain : reply ≠ .cancelled) : (c.answered reply).Kept n := by
  obtain ⟨permits, items, uncancelled, -⟩ := h
  simp only [here, Place.held] at permits
  have released : c.release.permits + c.release.created.length + c.release.running.length = n := by
    simp only [release]
    omega
  cases reply with
  | item x =>
    refine Call.loop_goes.kept ?_ ?_ uncancelled
    · simp only [List.length_append, List.length_singleton]
      omega
    · simpa only [List.append_assoc] using items.append_right [x]
  | stopAsyncIteration => exact (Call.leave_goes .returned nofun).kept released items uncancelled
  | raised e =>
    cases e with
    | timeoutError =>
      simp only [Call.answered]
      split
      · exact (Call.leave_goes (.raised .timeoutError) nofun).kept released items uncancelled
      · exact ⟨released, items, uncancelled, trivial⟩
    | _ => exact (Call.leave_goes (.raised _) nofun).kept released items uncancelled
  | cancelled => exact absurd rfl plain

theorem Call.Kept.next (h : c.Kept n) {l : Label ι ε} (plain : l.cancels = false)
    (hd : boundedIterator.next c l = some d) : d.Kept n := by
  cases l with
  | setStop stop =>
    obtain rfl := Option.some.inj hd
    exact ⟨h.permits, h.items, h.uncancelled, h.plain⟩
  | resume => exact h.resume hd
  | answer reply =>
    simp only [boundedIterator] at hd
    split at hd
    · next here =>
      obtain rfl := Option.some.inj hd
      exact h.answered here (by rintro rfl; cases plain)
    · cases hd
  | start k =>
    obtain ⟨permits, items, uncancelled, place⟩ := h
    simp only [boundedIterator] at hd
    rw [if_neg (by simp [uncancelled])] at hd
    obtain ⟨x, found, rfl⟩ := Option.map_eq_some_iff.mp hd
    have shorter := length_eraseIdx_of_some found
    refine ⟨?_, ?_, uncancelled, place.of_busy rfl
      (inFlight_ne_zero_of_created (List.mem_of_getElem? found))⟩
    · simp only [List.length_append, List.length_singleton]
      omega
    · have given := (perm_eraseIdx_of_some found).append_left c.given
      simpa only [List.append_assoc, List.singleton_append] using given.trans items
  | finish k outcome =>
    obtain ⟨permits, items, uncancelled, place⟩ := h
    obtain ⟨x, found, rfl⟩ := Option.map_eq_some_iff.mp hd
    have shorter := length_eraseIdx_of_some found
    refine ⟨?_, items, uncancelled, place.of_busy rfl
      (inFlight_ne_zero_of_running (List.mem_of_getElem? found))⟩
    simp only [release]
    omega
  | drop k =>
    simp only [boundedIterator, h.uncancelled, Bool.false_eq_true, if_false] at hd
    cases hd
  | record =>
    obtain ⟨permits, items, uncancelled, place⟩ := h
    simp only [boundedIterator] at hd
    split at hd
    · cases hd
    · next outcome rest found =>
      obtain rfl := Option.some.inj hd
      refine ⟨permits, items, uncancelled, place.of_busy rfl ?_⟩
      simp only [inFlight, found, List.length_cons]
      omega
  | cancel => cases plain

theorem Call.kept_start (concurrency : Int) (stop : Bool) :
    (start concurrency stop : Call ι ε).Kept concurrency.toNat := by
  unfold start
  split
  · refine ⟨by simp [Place.held], .nil, rfl, rfl, .raised .valueError, nofun, rfl⟩
  · exact Call.loop_goes.kept (by simp) .nil rfl

end Kept

/-- The failure of a handler. -/
def Label.failure : Label ι ε → Option (Error ε)
  | .finish _ outcome => outcome.exception
  | _ => none

def failuresOf (ls : List (Label ι ε)) : List (Error ε) := ls.filterMap Label.failure

/-- The failures that have been recorded or are about to be. -/
def Call.failures (c : Call ι ε) : List (Error ε) :=
  c.firstError.toList ++ c.callbacks.filterMap Outcome.exception

/-- The call has gone on; tasks and callbacks are left as they were. -/
structure Call.Frame (c d : Call ι ε) : Prop where
  firstError : d.firstError = c.firstError
  callbacks : d.callbacks = c.callbacks
  running : d.running = c.running

section Frame

variable {c d e : Call ι ε}

theorem Call.Frame.failures (h : c.Frame d) : d.failures = c.failures := by
  unfold Call.failures
  rw [h.firstError, h.callbacks]

theorem Call.Frame.trans (h : c.Frame d) (g : d.Frame e) : c.Frame e :=
  ⟨g.firstError.trans h.firstError, g.callbacks.trans h.callbacks, g.running.trans h.running⟩

theorem Call.Goes.frame (h : c.Goes d) : c.Frame d := by
  cases h <;> exact ⟨rfl, rfl, rfl⟩

theorem Call.leave_frame (exit : Outcome ε) : c.Frame (c.release.leave exit) := ⟨rfl, rfl, rfl⟩

theorem Call.resume_frame (hd : c.resume = some d) : c.Frame d := by
  unfold resume at hd
  split at hd
  · split at hd
    · next free =>
      obtain rfl := Option.some.inj hd
      exact (Call.acquired_goes free).frame
    · cases hd
  · obtain rfl := Option.some.inj hd
    exact Call.loop_goes.frame
  · obtain rfl := Option.some.inj hd
    split <;> exact ⟨rfl, rfl, rfl⟩
  · split at hd <;> cases hd
    exact ⟨rfl, rfl, rfl⟩
  · split at hd <;> cases hd
    exact ⟨rfl, rfl, rfl⟩
  · split at hd <;> cases hd
    exact ⟨rfl, rfl, rfl⟩
  · cases hd
  · cases hd

theorem Call.answered_frame (reply : Reply ι ε) : c.Frame (c.answered reply) := by
  cases reply with
  | item x =>
    have taken : c.Frame { c with created := c.created ++ [x], taken := c.taken ++ [x] } :=
      ⟨rfl, rfl, rfl⟩
    exact taken.trans Call.loop_goes.frame
  | stopAsyncIteration => exact leave_frame _
  | raised e =>
    cases e with
    | timeoutError =>
      simp only [answered]
      split <;> exact ⟨rfl, rfl, rfl⟩
    | _ => exact leave_frame _
  | cancelled => exact ⟨rfl, rfl, rfl⟩

theorem Call.cancel_frame (hd : c.cancel = some d) : c.Frame d := by
  unfold cancel at hd
  split at hd <;> cases hd <;> exact ⟨rfl, rfl, rfl⟩

/-- The first failure on the list stays first: a step adds what it makes fail at the end. -/
theorem failures_next {l : Label ι ε} (hd : boundedIterator.next c l = some d) :
    d.failures.head? = (c.failures ++ l.failure.toList).head? := by
  cases l with
  | setStop stop =>
    cases hd
    simp [Call.failures, Label.failure]
  | resume => simp [(Call.resume_frame hd).failures, Label.failure]
  | answer reply =>
    simp only [boundedIterator] at hd
    split at hd <;> cases hd
    simp [(Call.answered_frame reply).failures, Label.failure]
  | start k =>
    simp only [boundedIterator] at hd
    split at hd
    · cases hd
    · obtain ⟨x, -, rfl⟩ := Option.map_eq_some_iff.mp hd
      simp [Call.failures, Label.failure]
  | finish k outcome =>
    obtain ⟨x, -, rfl⟩ := Option.map_eq_some_iff.mp hd
    cases outcome <;>
      simp [Call.failures, Call.release, Label.failure, Outcome.exception, List.filterMap_append]
  | drop k =>
    simp only [boundedIterator] at hd
    split at hd
    · obtain ⟨x, -, rfl⟩ := Option.map_eq_some_iff.mp hd
      simp [Call.failures, Label.failure, Outcome.exception, List.filterMap_append]
    · cases hd
  | record =>
    simp only [boundedIterator] at hd
    split at hd
    · cases hd
    · next outcome rest found =>
      cases hd
      cases h : c.firstError <;> cases outcome <;>
        simp [Call.failures, Label.failure, Outcome.exception, found, h, List.findSome?_cons]
  | cancel => simp [(Call.cancel_frame hd).failures, Label.failure]

theorem failures_exec {ls : List (Label ι ε)} (hd : boundedIterator.exec c ls = some d) :
    d.failures.head? = (c.failures ++ failuresOf ls).head? := by
  induction ls generalizing c with
  | nil =>
    obtain rfl := Option.some.inj hd
    simp [failuresOf]
  | cons l ls ih =>
    obtain ⟨e, he, rest⟩ := Option.bind_eq_some_iff.mp hd
    have first : failuresOf (l :: ls) = l.failure.toList ++ failuresOf ls := by
      cases h : l.failure <;> simp [failuresOf, h]
    rw [ih rest, first, ← List.append_assoc, List.head?_append, failures_next he,
      ← List.head?_append]

theorem Call.failures_start (concurrency : Int) (stop : Bool) :
    (start concurrency stop : Call ι ε).failures = [] := by
  unfold start
  split
  · rfl
  · rw [Call.loop_goes.frame.failures]
    rfl

/-- When nothing is in flight, the first failure of the run is the one recorded. -/
theorem firstError_eq_head (empty : c.inFlight = 0) : c.firstError = c.failures.head? := by
  have none : c.callbacks = [] :=
    List.eq_nil_of_length_eq_zero (by unfold Call.inFlight at empty; omega)
  cases h : c.firstError <;> simp [Call.failures, none, h]

end Frame

/-- Once a failure is recorded `anext` is not called again, and the call takes an item only when it
is still waiting for one. -/
structure Call.Observed (c d : Call ι ε) : Prop where
  firstError : d.firstError.isSome
  asked : d.asked = c.asked
  place : c.place ≠ .asking → d.place ≠ .asking
  taken : c.place ≠ .asking → d.taken = c.taken

section Observed

variable {c d e : Call ι ε}

theorem Call.Observed.trans (h : c.Observed d) (g : d.Observed e) : c.Observed e :=
  ⟨g.firstError, g.asked.trans h.asked, fun hc => g.place (h.place hc),
    fun hc => (g.taken (h.place hc)).trans (h.taken hc)⟩

theorem Call.Goes.observed (h : c.Goes d) (failed : c.firstError.isSome) : c.Observed d := by
  cases h with
  | asking clear free => simp [clear] at failed
  | _ => exact ⟨failed, rfl, fun _ => nofun, fun _ => rfl⟩

/-- The `except` asks for nothing. -/
theorem Call.cancelTasks_observed (failed : c.firstError.isSome) : c.Observed c.cancelTasks := by
  refine ⟨failed, rfl, fun _ => ?_, fun _ => rfl⟩
  unfold cancelTasks
  split <;> nofun

theorem Call.resume_observed (failed : c.firstError.isSome) (hd : c.resume = some d) :
    c.Observed d := by
  unfold resume at hd
  split at hd
  · split at hd
    · next free =>
      obtain rfl := Option.some.inj hd
      exact (Call.acquired_goes free).observed failed
    · cases hd
  · obtain rfl := Option.some.inj hd
    exact Call.loop_goes.observed failed
  · next holding _ =>
    obtain rfl := Option.some.inj hd
    cases holding
    · exact cancelTasks_observed failed
    · have released := cancelTasks_observed (c := c.release) failed
      exact ⟨failed, rfl, fun _ => released.place ‹_›, fun _ => rfl⟩
  all_goals
    first
    | cases hd
    | split at hd <;> cases hd
      exact ⟨failed, rfl, fun _ => nofun, fun _ => rfl⟩

theorem Call.answered_observed (failed : c.firstError.isSome) (here : c.place = .asking)
    (reply : Reply ι ε) : c.Observed (c.answered reply) := by
  have asked : ∀ e : Call ι ε, e.firstError.isSome → e.asked = c.asked → c.Observed e :=
    fun e failed same => ⟨failed, same, fun other => absurd here other, fun other =>
      absurd here other⟩
  cases reply with
  | item x =>
    have gone := (Call.loop_goes (c := { c with
      created := c.created ++ [x], taken := c.taken ++ [x] })).observed failed
    exact asked _ gone.firstError gone.asked
  | stopAsyncIteration => exact asked _ failed rfl
  | raised e =>
    cases e with
    | timeoutError =>
      simp only [answered]
      split <;> exact asked _ failed rfl
    | _ => exact asked _ failed rfl
  | cancelled => exact asked _ failed rfl

theorem Call.cancel_observed (failed : c.firstError.isSome) (hd : c.cancel = some d) :
    c.Observed d := by
  unfold cancel at hd
  split at hd <;> cases hd
  case h_4 => exact ⟨failed, rfl, id, fun _ => rfl⟩
  case h_5 here => exact ⟨failed, rfl, id, fun _ => rfl⟩
  case h_6 here => exact ⟨failed, rfl, id, fun _ => rfl⟩
  all_goals exact ⟨failed, rfl, fun _ => nofun, fun _ => rfl⟩

theorem observed_next {l : Label ι ε} (failed : c.firstError.isSome)
    (hd : boundedIterator.next c l = some d) : c.Observed d := by
  cases l with
  | setStop stop =>
    cases hd
    exact ⟨failed, rfl, id, fun _ => rfl⟩
  | resume => exact Call.resume_observed failed hd
  | answer reply =>
    simp only [boundedIterator] at hd
    split at hd
    · next here =>
      cases hd
      exact Call.answered_observed failed here reply
    · cases hd
  | start k =>
    simp only [boundedIterator] at hd
    split at hd
    · cases hd
    · obtain ⟨x, -, rfl⟩ := Option.map_eq_some_iff.mp hd
      exact ⟨failed, rfl, id, fun _ => rfl⟩
  | finish k outcome =>
    obtain ⟨x, -, rfl⟩ := Option.map_eq_some_iff.mp hd
    exact ⟨failed, rfl, id, fun _ => rfl⟩
  | drop k =>
    simp only [boundedIterator] at hd
    split at hd
    · obtain ⟨x, -, rfl⟩ := Option.map_eq_some_iff.mp hd
      exact ⟨failed, rfl, id, fun _ => rfl⟩
    · cases hd
  | record =>
    simp only [boundedIterator] at hd
    split at hd
    · cases hd
    · cases hd
      exact ⟨by simp [failed], rfl, id, fun _ => rfl⟩
  | cancel => exact Call.cancel_observed failed hd

theorem observed_exec {ls : List (Label ι ε)} (failed : c.firstError.isSome)
    (hd : boundedIterator.exec c ls = some d) : c.Observed d := by
  induction ls generalizing c with
  | nil =>
    obtain rfl := Option.some.inj hd
    exact ⟨failed, rfl, id, fun _ => rfl⟩
  | cons l ls ih =>
    obtain ⟨e, he, rest⟩ := Option.bind_eq_some_iff.mp hd
    have first := observed_next failed he
    exact first.trans (ih first.firstError rest)

end Observed

/-- A step of the call, its tasks or the iterator. -/
def Label.works : Label ι ε → Bool
  | .setStop _ | .cancel => false
  | _ => true

/-- As long as it has not ended, a call that nobody has cancelled waits for the iterator, for a
handler or for nothing but its turn. -/
theorem Call.Kept.not_stuck {n : Nat} {c : Call ι ε} (h : c.Kept n) (positive : 0 < n)
    (unended : ∀ outcome, c.place ≠ .done outcome) :
    ∃ l, l.works ∧ l.cancels = false ∧ (boundedIterator.next c l).isSome := by
  obtain ⟨permits, -, uncancelled, plain⟩ := h
  have flying : c.inFlight ≠ 0 →
      ∃ l, l.works ∧ l.cancels = false ∧ (boundedIterator.next c l).isSome := by
    intro busy
    unfold inFlight at busy
    cases hc : c.created with
    | cons x xs => exact ⟨.start 0, rfl, rfl, by simp [boundedIterator, uncancelled, hc]⟩
    | nil =>
      cases hr : c.running with
      | cons x xs => exact ⟨.finish 0 .returned, rfl, rfl, by simp [boundedIterator, hr]⟩
      | nil =>
        cases hb : c.callbacks with
        | cons o os => exact ⟨.record, rfl, rfl, by simp [boundedIterator, hb]⟩
        | nil => simp [hc, hr, hb] at busy
  unfold Plain at plain
  split at plain <;> rename_i here
  · simp only [here, Place.held] at permits
    by_cases free : 0 < c.permits
    · exact ⟨.resume, rfl, rfl, by simp [boundedIterator, Call.resume, here, free]⟩
    · exact flying (by unfold inFlight; omega)
  · exact ⟨.answer .stopAsyncIteration, rfl, rfl, by simp [boundedIterator, here]⟩
  · exact ⟨.resume, rfl, rfl, by simp [boundedIterator, Call.resume, here]⟩
  · next exit =>
    by_cases empty : c.inFlight = 0
    · exact ⟨.resume, rfl, rfl, by simp [boundedIterator, Call.resume, here, empty]⟩
    · exact flying empty
  · exact absurd here (unended _)
  · exact plain.elim
  · exact plain.elim
  · exact plain.elim

theorem kept_exec {n : Nat} {c d : Call ι ε} {ls : List (Label ι ε)} (h : c.Kept n)
    (uncancelled : ∀ l ∈ ls, l.cancels = false) (hd : boundedIterator.exec c ls = some d) :
    d.Kept n :=
  Machine.invariant_along (fun _ _ _ kept plain next => kept.next plain next) h
    (Machine.Along.of_forall uncancelled c) hd

/-- What a call promises as long as it is not cancelled, when `failed` lists the failures of its
handlers in the order in which they have happened. -/
structure Call.Promise (concurrency : Int) (failed : List (Error ε)) (c : Call ι ε) : Prop where
  bound : c.created.length + c.running.length ≤ concurrency.toNat
  once : (c.given ++ c.created).Perm c.taken
  finished : ∀ outcome, c.place = .done outcome → c.inFlight = 0 ∧ c.given.Perm c.taken
  raises : ∀ outcome e, c.place = .done outcome → failed.head? = some e → outcome = .raised e
  stops : ∀ ks d, boundedIterator.exec c ks = some d → c.firstError.isSome →
    d.asked = c.asked ∧ (c.place ≠ .asking → d.taken = c.taken)
  goesOn : 1 ≤ concurrency → (∀ outcome, c.place ≠ .done outcome) →
    ∃ l, l.works ∧ l.cancels = false ∧ (boundedIterator.next c l).isSome

theorem run_bounded_iterator_promise (concurrency : Int) (stop : Bool) (ls : List (Label ι ε))
    (c : Call ι ε) (uncancelled : ∀ l ∈ ls, l.cancels = false)
    (run : boundedIterator.exec (Call.start concurrency stop) ls = some c) :
    c.Promise concurrency (failuresOf ls) := by
  have kept := kept_exec (Call.kept_start concurrency stop) uncancelled run
  have ended : ∀ outcome, c.place = .done outcome →
      c.inFlight = 0 ∧ ∃ exit, exit ≠ .cancelled ∧ outcome = c.conclude exit := by
    intro outcome here
    have plain := kept.plain
    unfold Call.Plain at plain
    rw [here] at plain
    exact plain
  refine ⟨?_, kept.items, fun outcome here => ?_, fun outcome e here first => ?_,
    fun ks d rest failed => ?_, fun positive => kept.not_stuck (by omega)⟩
  · have permits := kept.permits
    omega
  · obtain ⟨empty, -⟩ := ended outcome here
    refine ⟨empty, ?_⟩
    have none : c.created = [] :=
      List.eq_nil_of_length_eq_zero (by unfold Call.inFlight at empty; omega)
    simpa only [none, List.append_nil] using kept.items
  · obtain ⟨empty, exit, -, rfl⟩ := ended outcome here
    have recorded : c.firstError = some e := by
      rw [firstError_eq_head empty, failures_exec run, Call.failures_start, List.nil_append, first]
    simp only [Call.conclude, recorded]
  · have seen := observed_exec failed rest
    exact ⟨seen.asked, seen.taken⟩

/-- Two permits and three items; the second handler fails first. -/
def secondFails : List (Label Nat String) :=
  [.answer (.item 1), .answer (.item 2), .start 0, .start 0, .finish 1 (.raised (.other "second")),
    .resume, .record, .answer (.item 3), .finish 0 (.raised (.other "first")), .resume, .start 0,
    .record, .finish 0 .returned, .record, .resume]

theorem run_bounded_iterator_promise_in_secondFails :
    ∃ c, boundedIterator.exec (Call.start 2 false) secondFails = some c ∧
      c.place = .done (.raised (.other "second")) ∧ c.Promise 2 (failuresOf secondFails) :=
  ⟨_, rfl, rfl, run_bounded_iterator_promise 2 false secondFails _ (by decide) rfl⟩

end Relayna.Consumer.BoundedIterator
