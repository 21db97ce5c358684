import Relayna.Foundation.Transition

/-!
# `map_bounded` and its workers

One call of `map_bounded` with the tasks that run `run_worker`. A worker goes from one `await` of
an operation to the next without being interrupted: it stores what the operation has returned,
takes the next index and calls the operation with that item. In between the event loop starts
workers, operations end, and the call goes on: `observe` is its `except`, entered once the first
exception has reached `gather`, and `conclude` the end of a `gather`.

An operation ends as it likes, also one that has been cancelled. One that raises then takes its
worker with it; one that returns sends it back into the loop, where nothing tells the worker of the
failure. `given` are the indices the operation has been called with; no step reads them.
-/
namespace Relayna.Consumer.MapBounded

open Transition

/-- A worker that is `running` awaits the operation on the item with this index; `cancelled` when
`CancelledError` has been thrown into that operation. -/
inductive Worker where
  | fresh
  | running (index : Nat) (cancelled : Bool)
  | ended
  deriving DecidableEq, Repr

def Worker.isFresh : Worker → Bool
  | .fresh => true
  | _ => false

def Worker.isRunning : Worker → Bool
  | .running _ _ => true
  | _ => false

/-- `task.cancel()`. -/
def Worker.cancel : Worker → Worker
  | .running index _ => .running index true
  | w => w

/-- `refused` is the `ValueError` of a concurrency below one. -/
inductive Place (β ε : Type) where
  | refused
  | gathering
  | cancelling (e : ε)
  | returned (results : List (Option β))
  | raised (e : ε)
  deriving DecidableEq, Repr

/-- The call has ended. -/
def Place.final {β ε : Type} : Place β ε → Bool
  | .gathering | .cancelling _ => false
  | _ => true

/-- `failed` is the first exception of a worker. -/
structure Pool (β ε : Type) where
  place : Place β ε
  nextIndex : Nat
  results : List (Option β)
  workers : List Worker
  failed : Option ε
  given : List Nat
  deriving DecidableEq, Repr

variable {β ε : Type}

namespace Pool

/-- The place of a call that has just been made on `size` items. -/
def start (size : Nat) (concurrency : Int) : Pool β ε :=
  if concurrency < 1 then ⟨.refused, 0, [], [], none, []⟩
  else if size = 0 then ⟨.returned [], 0, [], [], none, []⟩
  else ⟨.gathering, 0, List.replicate size none,
    List.replicate (min concurrency.toNat size) .fresh, none, []⟩

/-- The `while` of worker `k`. -/
def loop (size k : Nat) (c : Pool β ε) : Pool β ε :=
  if c.nextIndex < size then
    { c with
      workers := c.workers.set k (.running c.nextIndex false)
      nextIndex := c.nextIndex + 1
      given := c.given ++ [c.nextIndex] }
  else { c with workers := c.workers.set k .ended }

/-- The end of the `gather` that the call awaits. -/
def conclude (c : Pool β ε) : Option (Pool β ε) :=
  if c.workers.all (· == .ended) then
    match c.place, c.failed with
    | .gathering, none => some { c with place := .returned c.results }
    | .cancelling e, _ => some { c with place := .raised e }
    | _, _ => none
  else none

/-- The call enters its `except`. -/
def observe (c : Pool β ε) : Option (Pool β ε) :=
  match c.place, c.failed with
  | .gathering, some e =>
    some { c with place := .cancelling e, workers := c.workers.map Worker.cancel }
  | _, _ => none

def running (c : Pool β ε) : Nat := c.workers.countP Worker.isRunning

end Pool

/-- `start` runs a worker for the first time, `returns` and `raises` end an operation, and `drop`
ends a worker that has been cancelled before it ran. -/
inductive Label (β ε : Type) where
  | start (k : Nat)
  | returns (k : Nat) (v : β)
  | raises (k : Nat) (e : ε)
  | drop (k : Nat)
  | observe
  | conclude
  deriving DecidableEq, Repr

/-- `map_bounded` on `size` items. -/
def mapBounded (size : Nat) : Machine (Pool β ε) (Label β ε) where
  next c l := match l with
    | .start k => match c.workers[k]?, c.place with
      | some .fresh, .gathering => some (c.loop size k)
      | _, _ => none
    | .returns k v => match c.workers[k]? with
      | some (.running i _) => some ({ c with results := c.results.set i (some v) }.loop size k)
      | _ => none
    | .raises k e => match c.workers[k]? with
      | some (.running _ _) => some
        { c with workers := c.workers.set k .ended, failed := c.failed.or (some e) }
      | _ => none
    | .drop k => match c.workers[k]?, c.place with
      | some .fresh, .cancelling _ => some { c with workers := c.workers.set k .ended }
      | _, _ => none
    | .observe => c.observe
    | .conclude => c.conclude

/-- Everything a step can do. -/
inductive Pool.Step (size : Nat) (c : Pool β ε) : Label β ε → Pool β ε → Prop where
  | start (k : Nat) (here : c.workers[k]? = some .fresh) (waits : c.place = .gathering) :
      Step size c (.start k) (c.loop size k)
  | returns (k i : Nat) (b : Bool) (v : β) (here : c.workers[k]? = some (.running i b)) :
      Step size c (.returns k v) ({ c with results := c.results.set i (some v) }.loop size k)
  | raises (k i : Nat) (b : Bool) (e : ε) (here : c.workers[k]? = some (.running i b)) :
      Step size c (.raises k e)
        { c with workers := c.workers.set k .ended, failed := c.failed.or (some e) }
  | drop (k : Nat) (e : ε) (here : c.workers[k]? = some .fresh) (told : c.place = .cancelling e) :
      Step size c (.drop k) { c with workers := c.workers.set k .ended }
  | observe (e : ε) (waits : c.place = .gathering) (failed : c.failed = some e) :
      Step size c .observe
        { c with place := .cancelling e, workers := c.workers.map Worker.cancel }
  | returned (idle : ∀ w ∈ c.workers, w = .ended) (waits : c.place = .gathering)
      (clear : c.failed = none) : Step size c .conclude { c with place := .returned c.results }
  | raised (e : ε) (idle : ∀ w ∈ c.workers, w = .ended) (told : c.place = .cancelling e) :
      Step size c .conclude { c with place := .raised e }

theorem step_iff {size : Nat} {c d : Pool β ε} {l : Label β ε} :
    (mapBounded size).next c l = some d ↔ c.Step size l d := by
  constructor
  · intro h
    cases l with
    | start k =>
      simp only [mapBounded] at h
      split at h
      · next here waits =>
        cases h
        exact .start k here waits
      · cases h
    | returns k v =>
      simp only [mapBounded] at h
      split at h
      · next i b here =>
        cases h
        exact .returns k i b v here
      · cases h
    | raises k e =>
      simp only [mapBounded] at h
      split at h
      · next i b here =>
        cases h
        exact .raises k i b e here
      · cases h
    | drop k =>
      simp only [mapBounded] at h
      split at h
      · next e here told =>
        cases h
        exact .drop k e here told
      · cases h
    | observe =>
      simp only [mapBounded, Pool.observe] at h
      split at h
      · next e waits failed =>
        cases h
        exact .observe e waits failed
      · cases h
    | conclude =>
      simp only [mapBounded, Pool.conclude] at h
      split at h
      · next idle =>
        simp only [List.all_eq_true, beq_iff_eq] at idle
        split at h
        · next waits clear =>
          cases h
          exact .returned idle waits clear
        · next _ e told =>
          cases h
          exact .raised e idle told
        · cases h
      · cases h
  · rintro (⟨k, here, waits⟩ | ⟨k, i, b, v, here⟩ | ⟨k, i, b, e, here⟩ | ⟨k, e, here, told⟩ |
      ⟨e, waits, failed⟩ | ⟨idle, waits, clear⟩ | ⟨e, idle, told⟩)
    · simp [mapBounded, here, waits]
    · simp [mapBounded, here]
    · simp [mapBounded, here]
    · simp [mapBounded, here, told]
    · simp [mapBounded, Pool.observe, waits, failed]
    · simpa [mapBounded, Pool.conclude, waits, clear] using idle
    · simpa [mapBounded, Pool.conclude, told] using idle

/-! ## What holds in every state -/

/-- Operation `operation i x` returns what the call with the `i`-th item `x` returns. -/
def Answers {ι : Type} (items : List ι) (operation : Nat → ι → β) (c : Pool β ε) :
    Label β ε → Prop
  | .returns k v => ∀ i b, c.workers[k]? = some (.running i b) →
      some v = items[i]?.map (operation i)
  | _ => True

section Kept

variable {ι : Type} {items : List ι} {operation : Nat → ι → β} {m : Nat} {c d : Pool β ε}

/-- A call that has not failed: every item given out is with a worker or has its result, and a
worker has only ended for want of items. -/
structure Pool.Clear (items : List ι) (operation : Nat → ι → β) (c : Pool β ε) : Prop where
  covered : ∀ j < c.nextIndex, (∃ (k : Nat) (b : Bool), c.workers[k]? = some (.running j b)) ∨
    c.results[j]? = some (items[j]?.map (operation j))
  exhausted : Worker.ended ∈ c.workers → c.nextIndex = items.length

structure Pool.Kept (items : List ι) (operation : Nat → ι → β) (m : Nat) (c : Pool β ε) :
    Prop where
  workers : c.workers.length = m
  given : c.given = List.range c.nextIndex
  next_le : c.nextIndex ≤ items.length
  index_lt : ∀ (k i : Nat) (b : Bool), c.workers[k]? = some (.running i b) → i < c.nextIndex
  results : 0 < m → c.results.length = items.length
  gathers : c.place = .gathering → 0 < m
  clear : c.failed = none → c.Clear items operation
  returned : ∀ rs, c.place = .returned rs → c.failed = none ∧ c.nextIndex = items.length ∧
    rs = items.mapIdx fun i x => some (operation i x)
  told : ∀ e, c.place = .cancelling e ∨ c.place = .raised e → c.failed = some e
  idle : c.place.final = true → ∀ w ∈ c.workers, w = .ended

/-- While worker `k` is between two operations the other workers and the results cover what has
been given out. -/
structure Pool.Between (items : List ι) (operation : Nat → ι → β) (k : Nat) (c : Pool β ε) :
    Prop where
  covered : ∀ j < c.nextIndex,
    (∃ (k' : Nat) (b : Bool), k' ≠ k ∧ c.workers[k']? = some (.running j b)) ∨
      c.results[j]? = some (items[j]?.map (operation j))
  exhausted : Worker.ended ∈ c.workers → c.nextIndex = items.length

theorem Pool.Between.loop {k : Nat} (h : c.Between items operation k)
    (inside : k < c.workers.length) (le : c.nextIndex ≤ items.length) :
    (c.loop items.length k).Clear items operation := by
  have elsewhere {j : Nat} (w : Worker) (hj : j < c.nextIndex) :
      (∃ (k' : Nat) (b : Bool), (c.workers.set k w)[k']? = some (.running j b)) ∨
        c.results[j]? = some (items[j]?.map (operation j)) := by
    refine (h.covered j hj).imp_left fun ⟨k', b, ne, there⟩ => ⟨k', b, ?_⟩
    rw [List.getElem?_set_ne ne.symm, there]
  unfold Pool.loop
  split
  · next more =>
    refine ⟨fun j hj => ?_, fun ended => ?_⟩
    · obtain hj | rfl := Nat.lt_succ_iff_lt_or_eq.mp hj
      · exact elsewhere _ hj
      · exact Or.inl ⟨k, false, by rw [List.getElem?_set_self inside]⟩
    · obtain ended | same := List.mem_or_eq_of_mem_set ended
      · exact absurd (h.exhausted ended) (Nat.ne_of_lt more)
      · cases same
  · next none_ =>
    exact ⟨fun j hj => elsewhere _ hj, fun _ => Nat.le_antisymm le (Nat.not_lt.mp none_)⟩

theorem Pool.loop_failed {size k : Nat} : (c.loop size k).failed = c.failed := by
  unfold loop
  split <;> rfl

/-- A worker that has not ended goes through its loop. -/
theorem Pool.Kept.loop {k : Nat} {w : Worker} (h : c.Kept items operation m)
    (rs : List (Option β)) (here : c.workers[k]? = some w) (live : w ≠ .ended)
    (length : rs.length = c.results.length)
    (between : c.failed = none → ({ c with results := rs } : Pool β ε).Between items operation k) :
    (({ c with results := rs } : Pool β ε).loop items.length k).Kept items operation m := by
  obtain ⟨inside, -⟩ := List.getElem?_eq_some_iff.mp here
  have unended : c.place.final ≠ true := fun final =>
    live (h.idle final w (List.mem_of_getElem? here))
  have clear (clear : c.failed = none) := (between clear).loop inside h.next_le
  unfold Pool.loop at clear ⊢
  split
  · next more =>
    rw [if_pos more] at clear
    refine ⟨(List.length_set ..).trans h.workers, ?_, more, ?_,
      fun pos => length.trans (h.results pos), h.gathers, clear, fun rs hrs => ?_, h.told,
      fun final => absurd final unended⟩
    · rw [h.given, List.range_succ]
    · intro k' i b there
      obtain ⟨-, same⟩ | ⟨-, there⟩ := set_some_cases there
      · cases same
        exact Nat.lt_succ_self _
      · exact Nat.lt_succ_of_lt (h.index_lt k' i b there)
    · exact absurd (by rw [show c.place = _ from hrs]; rfl) unended
  · next none_ =>
    rw [if_neg none_] at clear
    refine ⟨(List.length_set ..).trans h.workers, h.given, h.next_le, ?_,
      fun pos => length.trans (h.results pos), h.gathers, clear, fun rs hrs => ?_, h.told,
      fun final => absurd final unended⟩
    · intro k' i b there
      obtain ⟨-, same⟩ | ⟨-, there⟩ := set_some_cases there
      · cases same
      · exact h.index_lt k' i b there
    · exact absurd (by rw [show c.place = _ from hrs]; rfl) unended

/-- The result of worker `k` is stored before it goes on. -/
theorem Pool.Clear.store {k i : Nat} {b : Bool} {v : β} (h : c.Clear items operation)
    (here : c.workers[k]? = some (.running i b)) (inside : i < c.results.length)
    (answer : some v = items[i]?.map (operation i)) :
    ({ c with results := c.results.set i (some v) } : Pool β ε).Between items operation k := by
  refine ⟨fun j hj => ?_, h.exhausted⟩
  by_cases same : j = i
  · subst same
    exact Or.inr ((List.getElem?_set_self inside).trans (congrArg some answer))
  · have untouched : (c.results.set i (some v))[j]? = c.results[j]? :=
      List.getElem?_set_ne fun e => same e.symm
    obtain ⟨k', b', there⟩ | done := h.covered j hj
    · refine Or.inl ⟨k', b', ?_, there⟩
      rintro rfl
      cases here.symm.trans there
      exact same rfl
    · exact Or.inr (untouched.trans done)

/-- All results are there once no worker is left. -/
theorem Pool.Kept.collect (h : c.Kept items operation m) (clear : c.failed = none)
    (idle : ∀ w ∈ c.workers, w = .ended) (waits : c.place = .gathering) :
    c.nextIndex = items.length ∧ c.results = items.mapIdx fun i x => some (operation i x) := by
  obtain ⟨covered, exhausted⟩ := h.clear clear
  have positive := h.gathers waits
  have someone : Worker.ended ∈ c.workers := by
    obtain ⟨w, hw⟩ := List.exists_mem_of_length_pos (h.workers ▸ positive)
    exact idle w hw ▸ hw
  have all := exhausted someone
  refine ⟨all, List.ext_getElem? fun j => ?_⟩
  rw [List.getElem?_mapIdx]
  by_cases hj : j < items.length
  · obtain ⟨k, b, there⟩ | done := covered j (all ▸ hj)
    · cases idle _ (List.mem_of_getElem? there)
    · rw [done, List.getElem?_eq_getElem hj]
      rfl
  · have length := h.results positive
    rw [List.getElem?_eq_none (by omega), List.getElem?_eq_none (by omega)]
    rfl

theorem Pool.Kept.next {l : Label β ε} (h : c.Kept items operation m)
    (answers : Answers items operation c l) (hd : (mapBounded items.length).next c l = some d) :
    d.Kept items operation m := by
  have unended {k : Nat} {w : Worker} (here : c.workers[k]? = some w) (live : w ≠ .ended) :
      c.place.final ≠ true := fun final =>
    live (h.idle final w (List.mem_of_getElem? here))
  have unreturned {k : Nat} {w : Worker} (here : c.workers[k]? = some w) (live : w ≠ .ended)
      (rs : List (Option β)) : c.place ≠ .returned rs := fun hrs =>
    unended here live (by rw [hrs]; rfl)
  have fewer {k k' i : Nat} {b : Bool}
      (there : (c.workers.set k .ended)[k']? = some (.running i b)) : i < c.nextIndex := by
    obtain ⟨-, same⟩ | ⟨-, there⟩ := set_some_cases there
    · cases same
    · exact h.index_lt k' i b there
  cases step_iff.mp hd with
  | start k here waits =>
    refine h.loop c.results here nofun rfl fun clear =>
      ⟨fun j hj => ?_, (h.clear clear).exhausted⟩
    refine ((h.clear clear).covered j hj).imp_left fun ⟨k', b, there⟩ => ⟨k', b, ?_, there⟩
    rintro rfl
    rw [here] at there
    cases there
  | returns k i b v here =>
    obtain ⟨inside, -⟩ := List.getElem?_eq_some_iff.mp here
    have length := h.results (h.workers ▸ Nat.zero_lt_of_lt inside)
    have stored : i < c.results.length := by
      have := h.index_lt k i b here
      have := h.next_le
      omega
    exact h.loop _ here nofun (List.length_set ..) fun clear =>
      (h.clear clear).store here stored (answers i b here)
  | raises k i b e here =>
    refine ⟨(List.length_set ..).trans h.workers, h.given, h.next_le, fun k' i b => fewer,
      h.results, h.gathers, fun clear => ?_, fun rs hrs => (unreturned here nofun rs hrs).elim,
      fun e' told => ?_, fun final => (unended here nofun final).elim⟩
    · cases hf : c.failed <;> simp [hf] at clear
    · rw [h.told e' told, Option.some_or]
  | drop k e here told =>
    refine ⟨(List.length_set ..).trans h.workers, h.given, h.next_le, fun k' i b => fewer,
      h.results, h.gathers, fun clear => ?_, fun rs hrs => (unreturned here nofun rs hrs).elim,
      h.told,
      fun final => (unended here nofun final).elim⟩
    have := (h.told e (Or.inl told)).symm.trans clear
    cases this
  | observe e waits failed =>
    refine ⟨(List.length_map ..).trans h.workers, h.given, h.next_le, fun k i b there => ?_,
      h.results, nofun, fun clear => ?_, fun rs => nofun,
      fun e' told => ?_, fun final => (Bool.false_ne_true final).elim⟩
    · rw [List.getElem?_map] at there
      obtain ⟨w, hw, same⟩ := Option.map_eq_some_iff.mp there
      cases w with
      | running i' b' =>
        cases same
        exact h.index_lt k i b' hw
      | fresh => cases same
      | ended => cases same
    · have := failed.symm.trans clear
      cases this
    · obtain same | same := told
      · cases same
        exact failed
      · cases same
  | returned idle waits clear =>
    obtain ⟨all, results⟩ := h.collect clear idle waits
    refine ⟨h.workers, h.given, h.next_le, h.index_lt, h.results, nofun,
      fun clear => ⟨(h.clear clear).covered, (h.clear clear).exhausted⟩, fun rs hrs => ?_,
      fun e told => ?_, fun _ => idle⟩
    · cases hrs
      exact ⟨clear, all, results⟩
    · obtain same | same := told <;> cases same
  | raised e idle told =>
    refine ⟨h.workers, h.given, h.next_le, h.index_lt, h.results, nofun,
      fun clear => ⟨(h.clear clear).covered, (h.clear clear).exhausted⟩, fun rs => nofun,
      fun e' told' => ?_, fun _ => idle⟩
    obtain same | same := told' <;> cases same
    exact h.told e (Or.inl told)

theorem Pool.kept_start (concurrency : Int) :
    (start items.length concurrency : Pool β ε).Kept items operation
      (start items.length concurrency : Pool β ε).workers.length := by
  unfold start
  split
  · exact ⟨rfl, rfl, Nat.zero_le _, fun k i b there => by simp at there,
      fun h => absurd h (Nat.lt_irrefl 0), nofun,
      fun _ => ⟨fun j hj => absurd hj (Nat.not_lt_zero j), fun h => by simp at h⟩,
      fun rs => nofun, fun e told => by simp at told, fun _ w hw => by simp at hw⟩
  · split
    · next empty =>
      obtain rfl := List.length_eq_zero_iff.mp empty
      refine ⟨rfl, rfl, Nat.zero_le _, fun k i b there => by simp at there,
        fun h => absurd h (Nat.lt_irrefl 0), nofun,
      fun _ => ⟨fun j hj => absurd hj (Nat.not_lt_zero j), fun h => by simp at h⟩,
        fun rs hrs => ?_, fun e told => by simp at told, fun _ w hw => by simp at hw⟩
      cases hrs
      exact ⟨rfl, rfl, rfl⟩
    · next positive nonempty =>
      refine ⟨rfl, rfl, Nat.zero_le _, fun k i b there => ?_, fun _ => List.length_replicate,
        fun _ => ?_,
        fun _ => ⟨fun j hj => absurd hj (Nat.not_lt_zero j), fun ended => ?_⟩,
        fun rs => nofun, fun e told => by simp at told, nofun⟩
      · cases List.eq_of_mem_replicate (List.mem_of_getElem? there)
      · rw [List.length_replicate]
        omega
      · cases List.eq_of_mem_replicate ended

theorem Pool.start_workers_le (size : Nat) (concurrency : Int) :
    (start size concurrency : Pool β ε).workers.length ≤ min concurrency.toNat size := by
  unfold start
  split
  · exact Nat.zero_le _
  · split
    · exact Nat.zero_le _
    · exact Nat.le_of_eq List.length_replicate

end Kept

/-! ## Failures -/

/-- What the operation raises that a step ends. -/
def Label.failure : Label β ε → Option ε
  | .raises _ e => some e
  | _ => none

section Failures

variable {size : Nat} {c d : Pool β ε} {l : Label β ε} {ls : List (Label β ε)}

theorem failed_next (hd : (mapBounded size).next c l = some d) :
    d.failed = c.failed.or l.failure := by
  cases step_iff.mp hd with
  | start => exact Pool.loop_failed.trans Option.or_none.symm
  | returns => exact Pool.loop_failed.trans Option.or_none.symm
  | raises => rfl
  | drop => exact (Option.or_none).symm
  | observe => exact (Option.or_none).symm
  | returned => exact (Option.or_none).symm
  | raised => exact (Option.or_none).symm

/-- The exception that is kept is the first that an operation raises. -/
theorem failed_exec (hd : (mapBounded size).exec c ls = some d) :
    d.failed = c.failed.or (ls.filterMap Label.failure).head? := by
  induction ls generalizing c with
  | nil =>
    obtain rfl := Option.some.inj hd
    exact Option.or_none.symm
  | cons l ls ih =>
    obtain ⟨e, he, rest⟩ := Option.bind_eq_some_iff.mp hd
    rw [ih rest, failed_next he, Option.or_assoc]
    cases h : l.failure with
    | none => rw [List.filterMap_cons_none h, Option.none_or]
    | some exc => rw [List.filterMap_cons_some h, Option.some_or, List.head?_cons]

end Failures

/-! ## After the failure has been observed -/

/-- An operation that has been cancelled does not return. -/
def LetsThrough (c : Pool β ε) : Label β ε → Prop
  | .returns k _ => ∀ i, c.workers[k]? ≠ some (.running i true)
  | _ => True

/-- The call is past its first `gather`, and what still runs has been cancelled. -/
structure Pool.Told (given : List Nat) (c : Pool β ε) : Prop where
  place : ∃ e, c.place = .cancelling e ∨ c.place = .raised e
  cancelled : ∀ (k i : Nat) (b : Bool), c.workers[k]? = some (.running i b) → b = true
  given : c.given = given

section Told

variable {size : Nat} {c d : Pool β ε} {l : Label β ε} {ls : List (Label β ε)} {given : List Nat}

theorem Pool.Told.next (h : c.Told given) (through : LetsThrough c l)
    (hd : (mapBounded size).next c l = some d) : d.Told given := by
  have fewer {k : Nat} {w : Worker} (ended : w = .ended) (k' i : Nat) (b : Bool)
      (there : (c.workers.set k w)[k']? = some (.running i b)) : b = true := by
    subst ended
    obtain ⟨-, same⟩ | ⟨-, there⟩ := set_some_cases there
    · cases same
    · exact h.cancelled k' i b there
  obtain ⟨e, place⟩ := h.place
  cases step_iff.mp hd with
  | start k here waits => simp [waits] at place
  | returns k i b v here =>
    cases h.cancelled k i b here
    exact (through i here).elim
  | raises k i b e' here => exact ⟨h.place, fewer rfl, h.given⟩
  | drop k e' here told => exact ⟨h.place, fewer rfl, h.given⟩
  | observe e' waits failed => simp [waits] at place
  | returned idle waits clear => simp [waits] at place
  | raised e' idle told => exact ⟨⟨e', Or.inr rfl⟩, h.cancelled, h.given⟩

/-- The `except` cancels every operation that runs. -/
theorem told_observe (hd : (mapBounded size).next c .observe = some d) : d.Told c.given := by
  cases step_iff.mp hd with
  | observe e waits failed =>
    refine ⟨⟨e, Or.inl rfl⟩, fun k i b there => ?_, rfl⟩
    rw [List.getElem?_map] at there
    obtain ⟨w, -, same⟩ := Option.map_eq_some_iff.mp there
    cases w with
    | running i' b' =>
      cases same
      rfl
    | fresh => cases same
    | ended => cases same

theorem told_exec (h : c.Told given) (through : (mapBounded size).Along LetsThrough c ls)
    (hd : (mapBounded size).exec c ls = some d) : d.Told given :=
  Machine.invariant_along (fun _ _ _ told ok next => told.next ok next) h through hd

end Told

/-! ## The call ends -/

/-- What is left to do. -/
def Pool.work (size : Nat) (c : Pool β ε) : Nat :=
  2 * c.workers.countP Worker.isFresh + c.running + (size - c.nextIndex) +
    match c.place with
    | .gathering => 2
    | .cancelling _ => 1
    | _ => 0

section Work

variable {size : Nat} {c d : Pool β ε} {l : Label β ε} {ls : List (Label β ε)}

theorem countP_set {p : Worker → Bool} {k : Nat} {w v : Worker} {workers : List Worker}
    (here : workers[k]? = some w) :
    (workers.set k v).countP p + (p w).toNat = workers.countP p + (p v).toNat := by
  obtain ⟨before, after, rfl, -, moved⟩ := exists_split here
  rw [moved, List.countP_append, List.countP_append, List.countP_cons, List.countP_cons]
  cases p w <;> cases p v <;> simp <;> omega

theorem live_weight {w : Worker} (live : w ≠ .ended) :
    1 ≤ 2 * w.isFresh.toNat + w.isRunning.toNat := by
  cases w with
  | fresh => decide
  | running i b => exact Nat.le_refl 1
  | ended => exact (live rfl).elim

/-- A worker that ends leaves less to do. -/
theorem work_leave {k : Nat} {w : Worker} (here : c.workers[k]? = some w) (live : w ≠ .ended)
    (failed : Option ε) :
    ({ c with workers := c.workers.set k .ended, failed } : Pool β ε).work size < c.work size := by
  have weight := live_weight live
  have fresh : (c.workers.set k .ended).countP Worker.isFresh + w.isFresh.toNat =
      c.workers.countP Worker.isFresh + 0 := countP_set here
  have running : (c.workers.set k .ended).countP Worker.isRunning + w.isRunning.toNat =
      c.workers.countP Worker.isRunning + 0 := countP_set here
  unfold Pool.work Pool.running
  dsimp only
  omega

/-- So does one that goes through its loop. -/
theorem work_loop {k : Nat} {w : Worker} (here : c.workers[k]? = some w) (live : w ≠ .ended) :
    (c.loop size k).work size < c.work size := by
  unfold Pool.loop
  split
  · next more =>
    have weight := live_weight live
    have fresh : (c.workers.set k (.running c.nextIndex false)).countP Worker.isFresh +
        w.isFresh.toNat = c.workers.countP Worker.isFresh + 0 := countP_set here
    have running : (c.workers.set k (.running c.nextIndex false)).countP Worker.isRunning +
        w.isRunning.toNat = c.workers.countP Worker.isRunning + 1 := countP_set here
    unfold Pool.work Pool.running
    dsimp only
    omega
  · exact work_leave here live c.failed

theorem countP_cancel {p : Worker → Bool} (same : ∀ w, p w.cancel = p w) :
    (c.workers.map Worker.cancel).countP p = c.workers.countP p := by
  rw [List.countP_map]
  exact congrArg (fun q => c.workers.countP q) (funext same)

theorem work_next (hd : (mapBounded size).next c l = some d) : d.work size < c.work size := by
  cases step_iff.mp hd with
  | start k here waits => exact work_loop here nofun
  | returns k i b v here =>
    exact work_loop (c := { c with results := c.results.set i (some v) }) here nofun
  | raises k i b e here => exact work_leave here nofun _
  | drop k e here told => exact work_leave here nofun _
  | observe e waits failed =>
    have fresh : (c.workers.map Worker.cancel).countP Worker.isFresh =
        c.workers.countP Worker.isFresh := countP_cancel fun w => by cases w <;> rfl
    have running : (c.workers.map Worker.cancel).countP Worker.isRunning =
        c.workers.countP Worker.isRunning := countP_cancel fun w => by cases w <;> rfl
    unfold Pool.work Pool.running
    rw [waits]
    dsimp only
    omega
  | returned idle waits clear =>
    unfold Pool.work Pool.running
    rw [waits]
    dsimp only
    omega
  | raised e idle told =>
    unfold Pool.work Pool.running
    rw [told]
    dsimp only
    omega

/-- A run is no longer than the work there is. -/
theorem length_le_work (hd : (mapBounded size).exec c ls = some d) :
    ls.length + d.work size ≤ c.work size := by
  induction ls generalizing c with
  | nil =>
    obtain rfl := Option.some.inj hd
    exact Nat.le_of_eq (Nat.zero_add _)
  | cons l ls ih =>
    obtain ⟨e, he, rest⟩ := Option.bind_eq_some_iff.mp hd
    have := ih rest
    have := work_next he
    rw [List.length_cons]
    omega

theorem Pool.exists_live (busy : ¬∀ w ∈ c.workers, w = .ended) :
    ∃ (k : Nat) (w : Worker), c.workers[k]? = some w ∧ w ≠ .ended := by
  obtain ⟨w, hw, live⟩ : ∃ w ∈ c.workers, w ≠ .ended := by simpa using busy
  obtain ⟨k, here⟩ := List.getElem?_of_mem hw
  exact ⟨k, w, here, live⟩

/-- Unless it waits for an operation, a call that has not ended can go on. -/
theorem Pool.not_stuck (unended : c.place.final = false)
    (told : ∀ e, c.place = .cancelling e → c.failed = some e) :
    (∃ (k i : Nat) (b : Bool), c.workers[k]? = some (.running i b)) ∨
      ∃ l, ((mapBounded size).next c l).isSome := by
  by_cases idle : ∀ w ∈ c.workers, w = .ended
  · right
    cases hp : c.place with
    | gathering =>
      cases hf : c.failed with
      | none => exact ⟨.conclude, by rw [step_iff.mpr (.returned idle hp hf)]; rfl⟩
      | some e => exact ⟨.observe, by rw [step_iff.mpr (.observe e hp hf)]; rfl⟩
    | cancelling e => exact ⟨.conclude, by rw [step_iff.mpr (.raised e idle hp)]; rfl⟩
    | _ => simp [hp, Place.final] at unended
  · obtain ⟨k, w, here, live⟩ := Pool.exists_live idle
    cases w with
    | fresh =>
      right
      cases hp : c.place with
      | gathering => exact ⟨.start k, by rw [step_iff.mpr (.start k here hp)]; rfl⟩
      | cancelling e => exact ⟨.drop k, by rw [step_iff.mpr (.drop k e here hp)]; rfl⟩
      | _ => simp [hp, Place.final] at unended
    | running i b => exact Or.inl ⟨k, i, b, here⟩
    | ended => exact (live rfl).elim

end Work

/-! ## The promise -/

section Promise

variable {ι : Type}

/-- What a call promises when its run so far has been `ls`. -/
structure Pool.Promise (items : List ι) (operation : Nat → ι → β) (concurrency : Int)
    (ls : List (Label β ε)) (c : Pool β ε) : Prop where
  bound : c.running ≤ min concurrency.toNat items.length
  once : ∃ n, n ≤ items.length ∧ c.given = List.range n
  returns : ∀ rs, c.place = .returned rs → c.given = List.range items.length ∧
    rs = (items.mapIdx fun i x => some (operation i x)) ∧ ls.filterMap Label.failure = []
  raises : ∀ e, c.place = .raised e → (ls.filterMap Label.failure).head? = some e ∧
    ∀ w ∈ c.workers, w = .ended
  cancels : ∀ d, (mapBounded items.length).next c .observe = some d →
    ∀ (k i : Nat) (b : Bool), d.workers[k]? = some (.running i b) → b = true
  stops : ∀ d ks e, (mapBounded items.length).next c .observe = some d →
    (mapBounded items.length).Along LetsThrough d ks →
    (mapBounded items.length).exec d ks = some e → e.given = c.given
  goesOn : c.place.final = false →
    (∃ (k i : Nat) (b : Bool), c.workers[k]? = some (.running i b)) ∨
      ∃ l, ((mapBounded items.length).next c l).isSome
  ends : ls.length ≤ (start items.length concurrency : Pool β ε).work items.length

theorem map_bounded_promise (items : List ι) (operation : Nat → ι → β) (concurrency : Int)
    (ls : List (Label β ε)) (c : Pool β ε)
    (answers : (mapBounded items.length).Along (Answers items operation)
      (Pool.start items.length concurrency) ls)
    (run : (mapBounded items.length).exec (Pool.start items.length concurrency) ls = some c) :
    c.Promise items operation concurrency ls := by
  have kept : c.Kept items operation _ := Machine.invariant_along
    (fun _ _ _ kept ok next => kept.next ok next) (Pool.kept_start concurrency) answers run
  have failed := failed_exec run
  have clear : (Pool.start items.length concurrency : Pool β ε).failed = none := by
    unfold Pool.start
    split
    · rfl
    · split <;> rfl
  rw [clear, Option.none_or] at failed
  refine ⟨?_, ⟨_, kept.next_le, kept.given⟩, fun rs hrs => ?_, fun e he => ?_,
    fun d hd => (told_observe hd).cancelled, fun d ks e hd through hks => ?_, fun unended => ?_, ?_⟩
  · exact Nat.le_trans (kept.workers ▸ List.countP_le_length) (Pool.start_workers_le _ _)
  · obtain ⟨none_, all, rfl⟩ := kept.returned rs hrs
    exact ⟨all ▸ kept.given, rfl, List.head?_eq_none_iff.mp (failed.symm.trans none_)⟩
  · refine ⟨failed.symm.trans (kept.told e (Or.inr he)), kept.idle ?_⟩
    rw [he]
    rfl
  · exact (told_exec (told_observe hd) through hks).given
  · exact Pool.not_stuck unended fun e he => kept.told e (Or.inl he)
  · have := length_le_work run
    omega

/-- Two operations that end in the other order; and two of three items, the operation on the first
of which fails and the one on the second of which is cancelled. -/
theorem map_bounded_promise_doubling :
    (∃ c : Pool Nat String, c.place = .returned [some 2, some 4] ∧
      c.Promise [1, 2] (fun _ x => 2 * x) 2
        [.start 0, .start 1, .returns 1 4, .returns 0 2, .conclude]) ∧
    ∃ c : Pool Nat String, c.place = .raised "refused" ∧ c.given = [0, 1] ∧
      c.Promise [1, 2, 3] (fun _ x => 2 * x) 2
        [.start 0, .start 1, .raises 0 "refused", .observe, .raises 1 "cancelled", .conclude] := by
  refine ⟨⟨_, ?_, map_bounded_promise [1, 2] (fun _ x => 2 * x) 2
      [.start 0, .start 1, .returns 1 4, .returns 0 2, .conclude] _ ?_ rfl⟩,
    ⟨_, ?_, ?_, map_bounded_promise [1, 2, 3] (fun _ x => 2 * x) 2
      [.start 0, .start 1, .raises 0 "refused", .observe, .raises 1 "cancelled", .conclude] _ ?_
      rfl⟩⟩
  · rfl
  · refine .cons trivial rfl (.cons trivial rfl (.cons ?_ rfl (.cons ?_ rfl
      (.cons trivial rfl trivial))))
    · intro i b here
      have here : some (Worker.running 1 false) = some (.running i b) := here
      cases here
      rfl
    · intro i b here
      have here : some (Worker.running 0 false) = some (.running i b) := here
      cases here
      rfl
  · rfl
  · rfl
  · exact .cons trivial rfl (.cons trivial rfl (.cons trivial rfl (.cons trivial rfl
      (.cons trivial rfl (.cons trivial rfl trivial)))))

/-- The operation on the first of three items fails; the one on the second is cancelled and returns
all the same, and its worker calls the operation with the third. -/
theorem swallowed_cancellation_starts_another :
    ∃ c d e : Pool Unit Unit,
      (mapBounded 3).exec (Pool.start 3 2) [.start 0, .start 1, .raises 0 ()] = some c ∧
      (mapBounded 3).next c .observe = some d ∧
      (mapBounded 3).exec d [.returns 1 ()] = some e ∧ c.given = [0, 1] ∧ e.given = [0, 1, 2] :=
  ⟨_, _, _, rfl, rfl, rfl, rfl, rfl⟩

end Promise

end Relayna.Consumer.MapBounded
