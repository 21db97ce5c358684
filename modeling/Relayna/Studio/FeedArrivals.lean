import Relayna.Dlq.FailedTaskIndex
import Relayna.Foundation.Transition
import Relayna.Studio.FeedCursor
import Relayna.Studio.FeedTurns

/-!
# Failures that arrive while the feeds are paged

The feeds are indexes of dead-letter records that grow at their head. A cursor of a feed names a
record, and what lies below a record stays what it is; the first page has no cursor. A position
inside the first page, with some of its items returned, is therefore moved by every failure that
arrives: the page begins with the new failure, and an item that was returned is returned again.

A reader that holds no such position when a failure arrives never sees a failure twice.
-/
namespace Relayna.Studio.FailedTaskFeeds

open Python Contracts Turns Dlq Pages Transition

/-! ## The feeds -/

/-- The fields of `FailedTaskSummary` that a record of the model has. -/
def summaryFields (r : FailedRecord) : Item :=
  let optional (v : Option String) : Value := v.elim .none .str
  [("failure_id", .str r.dlqId), ("service_name", optional r.serviceName),
    ("task_id", optional r.taskId), ("queue_name", .str r.sourceQueueName),
    ("source_queue_name", .str r.sourceQueueName), ("dlq_name", .str r.queueName),
    ("status", .str r.status), ("failed_at", .str r.failedAt),
    ("error_type", optional r.exceptionType), ("worker_id", optional r.workerId),
    ("investigation_status", .str (if r.investigationStatus = .unreviewed then "unreviewed"
      else "investigated"))]

/-- Why a request fails. -/
inductive Trouble
  | error (e : StudioFederationError)
  | timeout

def Trouble.reply : Trouble → Reply
  | .error e => .error e
  | .timeout => .timeout

/-- The requests of a call, some of which fail. -/
def upstream (filters : FailedTaskFilters) (feeds : String → List IndexEntry)
    (down : String → Option String → Option Trouble) : Upstream := fun sid cursor =>
  match down sid cursor with
  | some trouble => trouble.reply
  | none =>
    let page := filters.listFailedTaskRecords (feeds sid) cursor 50
    .payload ⟨page.1.map fun r => .dict (summaryFields r), page.2⟩

/-! ## A reader and the failures that arrive -/

structure World where
  feeds : String → List IndexEntry
  cursor : Option String := none
  ended : Bool := false
  returned : List Item := []

inductive Event
  | arrive (sid : String) (e : IndexEntry)
  | call (limit : Nat) (down : String → Option String → Option Trouble)

/-- A failure has a new id. A reader calls with the cursor of the last answer until there is
none. -/
def paging (f : Federation) (filters : FailedTaskFilters) : Machine World Event where
  next w
    | .arrive sid e =>
      if e.dlqId ∈ (w.feeds sid).map IndexEntry.dlqId then none
      else some { w with feeds := Function.update w.feeds sid (e :: w.feeds sid) }
    | .call limit down =>
      if w.ended then none
      else match f.listFailedTasks (upstream filters w.feeds down) w.cursor limit with
        | .ok answer => some { w with
            cursor := answer.nextCursor
            ended := answer.nextCursor.isNone
            returned := w.returned ++ answer.items }
        | .error _ => none

/-- The position that the reader holds in the feed of a service. -/
def World.position (f : Federation) (w : World) (sid : String) : Position :=
  match f.codec.decodeCursor w.cursor with
  | some (positions, _) => Federation.positionAt positions sid
  | none => {}

/-- A failure that the filters match does not arrive while its service is read inside its first
page. -/
def Calm (f : Federation) (filters : FailedTaskFilters) (w : World) : Event → Prop
  | .arrive sid e =>
    let p := w.position f sid
    p.cursor = none → p.skip ≠ 0 → p.done = false →
      filters.inRange e = true → filters.matching e = none
  | .call _ _ => True

def failureId (item : Item) : String :=
  match item.lookup "failure_id" with
  | some (.str failureId) => failureId
  | _ => ""

/-- The failure that an item is about. -/
def failureOf (item : Item) : String × String := (serviceOf item, failureId item)

/-! ## What is ahead -/

section Ahead

variable {filters : FailedTaskFilters} {feed : List IndexEntry} {p : Position} {R : List String}
  {s : Service} {r : FailedRecord}

/-- What comes from the cursor of a position on. -/
def after (filters : FailedTaskFilters) (feed : List IndexEntry) (cursor : Option String) :
    List FailedRecord :=
  (below IndexEntry.dlqId (feed.filter filters.inRange) cursor).filterMap filters.matching

/-- Nothing that is ahead of an open position was returned. -/
structure Ahead (filters : FailedTaskFilters) (feed : List IndexEntry) (R : List String)
    (p : Position) : Prop where
  unseen : ∀ r ∈ (after filters feed p.cursor).drop p.skip, r.dlqId ∉ R
  inside : p.skip = 0 ∨ p.skip < min 50 (after filters feed p.cursor).length
  anchored : ∀ c ∈ p.cursor, c ∈ (feed.filter filters.inRange).map IndexEntry.dlqId
  fresh : p.cursor = none → p.skip = 0 → R = []

/-- The failures that a service has returned are distinct, and none of them is ahead. -/
def Once (filters : FailedTaskFilters) (feed : List IndexEntry) (R : List String)
    (p : Position) : Prop :=
  R.Nodup ∧ (p.done = false → Ahead filters feed R p)

theorem failureId_normalize :
    failureId (s.normalizeFailedTaskPayload (summaryFields r)) = r.dlqId := by
  rw [failureId, lookup_normalize_ne (by decide) (by decide)]
  rfl

/-- The ids of the records that match are in the order of the entries. -/
theorem map_dlqId_matching (entries : List IndexEntry) :
    ((entries.filterMap filters.matching).map (·.dlqId)).Sublist (entries.map (·.dlqId)) := by
  induction entries with
  | nil => exact List.Sublist.slnil
  | cons e entries ih =>
    cases here : filters.matching e with
    | none =>
      rw [List.filterMap_cons_none here]
      exact ih.cons _
    | some r =>
      have same : r.dlqId = e.dlqId := e.record_id r (Option.filter_eq_some_iff.mp here).1
      rw [List.filterMap_cons_some here, List.map_cons, List.map_cons, same]
      exact ih.cons_cons _

theorem nodup_inRange (nodup : (feed.map IndexEntry.dlqId).Nodup) :
    ((feed.filter filters.inRange).map IndexEntry.dlqId).Nodup :=
  (List.filter_sublist.map IndexEntry.dlqId).nodup nodup

theorem nodup_after (nodup : (feed.map IndexEntry.dlqId).Nodup) (cursor : Option String) :
    ((after filters feed cursor).map (·.dlqId)).Nodup := by
  refine (map_dlqId_matching _).nodup ?_
  exact ((below_suffix _ cursor).sublist.map _).nodup (nodup_inRange nodup)

/-- The records after one of them. -/
theorem after_some {cursor : Option String} {u v : List FailedRecord}
    (nodup : (feed.map IndexEntry.dlqId).Nodup)
    (split : after filters feed cursor = u ++ r :: v) :
    after filters feed (some r.dlqId) = v ∧
      r.dlqId ∈ (feed.filter filters.inRange).map IndexEntry.dlqId :=
  FailedTaskFilters.matching_below (nodup_inRange nodup) (below_suffix _ cursor) split

theorem cut_fst {n : Nat} {U : List FailedRecord} : (FailedTaskFilters.cut n U).1 = U.take n := by
  unfold FailedTaskFilters.cut
  split
  · rfl
  · rw [List.take_of_length_le (by omega)]

theorem itemsOf_summaries {rs : List FailedRecord} {next : Option String} :
    s.itemsOf ⟨rs.map fun r => .dict (summaryFields r), next⟩ =
      rs.map fun r => s.normalizeFailedTaskPayload (summaryFields r) := by
  unfold Service.itemsOf
  dsimp only
  rw [List.filterMap_map]
  exact congrFun List.filterMap_eq_map rs

/-- A turn of a feed that answers: it comes to its end with nothing, or returns the first record
that is ahead. -/
theorem turn_cases {feeds : String → List IndexEntry}
    {down : String → Option String → Option Trouble} {ys : List Item} {q : Position}
    (nodup : ((feeds s.serviceId).map IndexEntry.dlqId).Nodup)
    (ahead : Ahead filters (feeds s.serviceId) R p)
    (step : turn (upstream filters feeds down) s p = some (ys, q)) :
    (ys = [] ∧ q.done = true) ∨
    ∃ r rest, (after filters (feeds s.serviceId) p.cursor).drop p.skip = r :: rest ∧
      ys.map failureId = [r.dlqId] ∧
      (q.done = true ∨
        q.cursor = p.cursor ∧ q.skip = p.skip + 1 ∧
          q.skip < min 50 (after filters (feeds s.serviceId) p.cursor).length ∨
        q.cursor = some r.dlqId ∧ q.skip = 0) := by
  set U := after filters (feeds s.serviceId) p.cursor with hU
  have page : filters.listFailedTaskRecords (feeds s.serviceId) p.cursor 50 =
      FailedTaskFilters.cut 50 U := FailedTaskFilters.listFailedTaskRecords_eq nodup
  unfold turn upstream at step
  split at step
  · cases step
  dsimp only at step
  cases off : down s.serviceId p.cursor with
  | some trouble =>
    rw [off] at step
    cases trouble <;> cases step
  | none =>
    rw [off, page] at step
    simp only [itemsOf_summaries, cut_fst, ← List.map_drop] at step
    cases hV : (U.take 50).drop p.skip with
    | nil =>
      rw [hV] at step
      simp only [List.map_nil, Option.some.injEq, Prod.mk.injEq] at step
      refine Or.inl ⟨step.1.symm, ?_⟩
      have none_ : U = [] := by
        rw [List.drop_eq_nil_iff, List.length_take] at hV
        have inside := ahead.inside
        rw [← hU] at inside
        rcases inside with zero | inside
        · exact List.length_eq_zero_iff.mp (by omega)
        · omega
      rw [← step.2, none_]
      rfl
    | cons r V =>
      obtain ⟨rest, first⟩ : ∃ rest, U.drop p.skip = r :: rest := by
        have start : (r :: V) <+: U.drop p.skip := by
          rw [← hV, List.drop_take]
          exact List.take_prefix _ _
        obtain ⟨rest, whole⟩ := start
        exact ⟨V ++ rest, whole.symm⟩
      rw [hV] at step
      refine Or.inr ⟨r, rest, first, ?_⟩
      cases V with
      | cons r' V =>
        simp only [List.map_cons, Option.some.injEq, Prod.mk.injEq] at step
        obtain ⟨rfl, rfl⟩ := step
        refine ⟨by rw [List.map_cons, List.map_nil, failureId_normalize],
          Or.inr (Or.inl ⟨rfl, rfl, ?_⟩)⟩
        have length := congrArg List.length hV
        rw [List.length_drop, List.length_take, List.length_cons, List.length_cons] at length
        dsimp only
        omega
      | nil =>
        simp only [List.map_cons, List.map_nil, Option.some.injEq, Prod.mk.injEq] at step
        obtain ⟨rfl, rfl⟩ := step
        refine ⟨by rw [List.map_cons, List.map_nil, failureId_normalize], ?_⟩
        have last : (U.take 50).getLast? = some r := by
          rw [← List.take_append_drop p.skip (U.take 50), hV, List.getLast?_concat]
        have next : (FailedTaskFilters.cut 50 U).2 = none ∨
            (FailedTaskFilters.cut 50 U).2 = some r.dlqId := by
          unfold FailedTaskFilters.cut
          split
          · exact Or.inr (by rw [last, Option.map_some])
          · exact Or.inl rfl
        rcases next with next | next
        · rw [next]
          exact Or.inl rfl
        · rw [next, Position.advance, Position.following]
          split
          · exact Or.inr (Or.inr ⟨rfl, rfl⟩)
          · exact Or.inl rfl

/-- A turn returns nothing that was returned before. -/
theorem Once.turn {feeds : String → List IndexEntry}
    {down : String → Option String → Option Trouble} {ys : List Item} {q : Position}
    (nodup : ((feeds s.serviceId).map IndexEntry.dlqId).Nodup)
    (once : Once filters (feeds s.serviceId) R p)
    (step : turn (upstream filters feeds down) s p = some (ys, q)) :
    Once filters (feeds s.serviceId) (R ++ ys.map failureId) q := by
  have open_ : p.done = false := by
    by_contra ended
    rw [turn_of_done (by simpa using ended)] at step
    cases step
  have ahead := once.2 open_
  rcases turn_cases nodup ahead step with ⟨rfl, ended⟩ | ⟨r, rest, split, ids, place⟩
  · rw [List.map_nil, List.append_nil]
    exact ⟨once.1, fun open_ => absurd (ended.symm.trans open_) (by decide)⟩
  rw [ids]
  have unseen := ahead.unseen
  rw [split, List.forall_mem_cons] at unseen
  have distinct : (((after filters (feeds s.serviceId) p.cursor).drop p.skip).map
      (·.dlqId)).Nodup :=
    ((List.drop_sublist p.skip _).map _).nodup (nodup_after nodup p.cursor)
  rw [split, List.map_cons, List.nodup_cons] at distinct
  have later : ∀ r' ∈ rest, r'.dlqId ∉ R ++ [r.dlqId] := by
    intro r' hr' seen
    rcases List.mem_append.mp seen with old | here
    · exact unseen.2 r' hr' old
    · exact distinct.1 (List.mem_singleton.mp here ▸ List.mem_map_of_mem hr')
  refine ⟨?_, fun open_ => ?_⟩
  · rw [← List.concat_eq_append]
    exact once.1.concat unseen.1
  rcases place with ended | ⟨cursor, skip, inside⟩ | ⟨cursor, skip⟩
  · rw [ended] at open_
    cases open_
  · refine ⟨?_, ?_, by rw [cursor]; exact ahead.anchored, fun _ zero => ?_⟩
    · rw [cursor, skip, ← List.tail_drop, split, List.tail_cons]
      exact later
    · rw [cursor]
      exact Or.inr inside
    · omega
  · have whole : after filters (feeds s.serviceId) p.cursor =
        (after filters (feeds s.serviceId) p.cursor).take p.skip ++ r :: rest := by
      rw [← split, List.take_append_drop]
    obtain ⟨below_, present⟩ := after_some nodup whole
    refine ⟨?_, Or.inl skip, ?_, fun none_ => ?_⟩
    · rw [cursor, skip, List.drop_zero, below_]
      exact later
    · rw [cursor]
      intro c hc
      exact Option.some.inj hc ▸ present
    · rw [cursor] at none_
      cases none_

/-- A failure that arrives stays behind an open position, unless it is inside the first page. -/
theorem Once.arrive {e : IndexEntry} (once : Once filters feed R p)
    (new : e.dlqId ∉ feed.map IndexEntry.dlqId)
    (calm : p.cursor = none → p.skip ≠ 0 → p.done = false →
      filters.inRange e = true → filters.matching e = none) :
    Once filters (e :: feed) R p := by
  refine ⟨once.1, fun open_ => ?_⟩
  have ahead := once.2 open_
  by_cases out : filters.inRange e = true
  · have more : (e :: feed).filter filters.inRange = e :: feed.filter filters.inRange :=
      List.filter_cons_of_pos out
    have anchored : ∀ c ∈ p.cursor, c ∈ ((e :: feed).filter filters.inRange).map
        IndexEntry.dlqId := by
      intro c hc
      rw [more]
      exact List.mem_cons_of_mem _ (ahead.anchored c hc)
    have same_or : after filters (e :: feed) p.cursor = after filters feed p.cursor ∨
        p.cursor = none ∧ p.skip = 0 := by
      cases hc : p.cursor with
      | none =>
        by_cases zero : p.skip = 0
        · exact Or.inr ⟨rfl, zero⟩
        · refine Or.inl ?_
          unfold after
          rw [more]
          exact List.filterMap_cons_none (calm hc zero open_ out)
      | some c =>
        have present := ahead.anchored c hc
        obtain ⟨e', he', rfl⟩ := List.mem_map.mp present
        have ne : e.dlqId ≠ e'.dlqId := fun same =>
          new (same ▸ List.mem_map_of_mem (List.mem_of_mem_filter he'))
        refine Or.inl ?_
        unfold after
        rw [more, below_cons ne present]
    rcases same_or with same | ⟨first, zero⟩
    · exact ⟨by rw [same]; exact ahead.unseen, by rw [same]; exact ahead.inside, anchored,
        ahead.fresh⟩
    · have nothing := ahead.fresh first zero
      exact ⟨fun r _ => by rw [nothing]; exact List.not_mem_nil, Or.inl zero, anchored,
        ahead.fresh⟩
  · have same : (e :: feed).filter filters.inRange = feed.filter filters.inRange :=
      List.filter_cons_of_neg out
    exact ⟨by unfold after; rw [same]; exact ahead.unseen,
      by unfold after; rw [same]; exact ahead.inside, by rw [same]; exact ahead.anchored,
      ahead.fresh⟩

end Ahead

/-! ## Whole runs -/

section Runs

variable {f : Federation} {filters : FailedTaskFilters} {w w' : World}

structure Sound (f : Federation) (filters : FailedTaskFilters) (w : World) : Prop where
  ids : ∀ sid, ((w.feeds sid).map IndexEntry.dlqId).Nodup
  held : ∃ positions, f.codec.decodeCursor w.cursor = some (positions, 0) ∧
    (positions.map Prod.fst).Nodup
  own : ∀ item ∈ w.returned, ∃ s ∈ f.enabled, serviceOf item = s.serviceId
  nodup : ∀ s ∈ f.enabled, ((returned s.serviceId w.returned).map failureId).Nodup
  once : w.ended = false → ∀ s ∈ f.enabled, Once filters (w.feeds s.serviceId)
    ((returned s.serviceId w.returned).map failureId) (w.position f s.serviceId)

/-- What each service returns once is returned once. -/
theorem nodup_failures {items : List Item}
    (own : ∀ item ∈ items, ∃ s ∈ f.enabled, serviceOf item = s.serviceId)
    (nodup : ∀ s ∈ f.enabled, ((returned s.serviceId items).map failureId).Nodup) :
    (items.map failureOf).Nodup := by
  induction items with
  | nil => exact List.nodup_nil
  | cons item items ih =>
    rw [List.forall_mem_cons] at own
    have fewer : ∀ s ∈ f.enabled, ((returned s.serviceId items).map failureId).Nodup := by
      intro s hs
      exact (((List.sublist_cons_self item items).filter _).map _).nodup (nodup s hs)
    rw [List.map_cons, List.nodup_cons]
    refine ⟨fun again => ?_, ih own.2 fewer⟩
    obtain ⟨s, hs, here⟩ := own.1
    obtain ⟨item', hitem', same⟩ := List.mem_map.mp again
    obtain ⟨service, failure⟩ := Prod.mk.inj same
    have twice := nodup s hs
    rw [returned, List.filter_cons_of_pos (by simpa using here), List.map_cons,
      List.nodup_cons] at twice
    refine twice.1 (failure ▸ List.mem_map_of_mem (List.mem_filter.mpr ⟨hitem', ?_⟩))
    simpa using service.trans here

theorem Sound.arrive {sid : String} {e : IndexEntry} (h : Sound f filters w)
    (new : e.dlqId ∉ (w.feeds sid).map IndexEntry.dlqId)
    (calm : Calm f filters w (.arrive sid e)) :
    Sound f filters { w with feeds := Function.update w.feeds sid (e :: w.feeds sid) } where
  ids other := by
    by_cases here : other = sid
    · subst here
      simp only [Function.update_self, List.map_cons, List.nodup_cons]
      exact ⟨new, h.ids other⟩
    · simp only [Function.update_of_ne here]
      exact h.ids other
  held := h.held
  own := h.own
  nodup := h.nodup
  once open_ s hs := by
    have once := h.once open_ s hs
    by_cases here : s.serviceId = sid
    · subst here
      simp only [Function.update_self]
      exact once.arrive new calm
    · simp only [Function.update_of_ne here]
      exact once

theorem Sound.call {limit : Nat} {down : String → Option String → Option Trouble} {answer : Answer}
    (faithful : f.codec.Faithful) (unique : (f.services.map Service.serviceId).Nodup)
    (h : Sound f filters w) (open_ : w.ended = false)
    (call : f.listFailedTasks (upstream filters w.feeds down) w.cursor limit = .ok answer) :
    Sound f filters { w with
      cursor := answer.nextCursor
      ended := answer.nextCursor.isNone
      returned := w.returned ++ answer.items } := by
  obtain ⟨positions, decoded, keys⟩ := h.held
  simp only [Federation.listFailedTasks, decoded, Except.ok.injEq] at call
  subst call
  set c := f.run (upstream filters w.feeds down) limit positions 0 with hc
  have reading : c.Reading (upstream filters w.feeds down) f.enabled
      (Federation.positionAt positions) := Federation.run_reading unique
  have keys' : (c.positions.map Prod.fst).Nodup := Federation.nodup_run keys
  have once : ∀ s ∈ f.enabled, Once filters (w.feeds s.serviceId)
      ((returned s.serviceId (w.returned ++ c.page)).map failureId)
      (c.position s.serviceId) := by
    intro s hs
    have before := h.once open_ s hs
    rw [World.position, decoded] at before
    rw [returned_append, List.map_append]
    refine (reading.standing s hs).given.invariant
      (P := fun xs q => Once filters (w.feeds s.serviceId)
        ((returned s.serviceId w.returned).map failureId ++ xs.map failureId) q) ?_ ?_
    · rw [List.map_nil, List.append_nil]
      exact before
    · intro xs t ys u so_far step
      rw [List.map_append, ← List.append_assoc]
      exact so_far.turn (h.ids s.serviceId) step
  have held : c.hasMore f.enabled = true →
      f.codec.decodeCursor (f.answer c).nextCursor = some (c.positions, 0) := by
    intro more
    rw [Federation.answer, if_pos more]
    exact faithful.decodeCursor keys'
  constructor
  case ids => exact h.ids
  case held =>
    by_cases more : c.hasMore f.enabled = true
    · exact ⟨c.positions, held more, keys'⟩
    · refine ⟨[], ?_, List.nodup_nil⟩
      simp only [Federation.answer, if_neg more]
      rfl
  case own =>
    intro item hitem
    rcases List.mem_append.mp hitem with old | new
    · exact h.own item old
    · exact reading.own item new
  case nodup => exact fun s hs => (once s hs).1
  case once =>
    intro more s hs
    have more : c.hasMore f.enabled = true := by
      by_contra none_
      simp only [Federation.answer, if_neg none_] at more
      cases more
    simp only [World.position, held more]
    exact once s hs

theorem Sound.step {l : Event} (faithful : f.codec.Faithful)
    (unique : (f.services.map Service.serviceId).Nodup) (h : Sound f filters w)
    (calm : Calm f filters w l) (next : (paging f filters).next w l = some w') :
    Sound f filters w' := by
  cases l with
  | arrive sid e =>
    simp only [paging] at next
    split at next
    · cases next
    · cases next
      exact h.arrive ‹_› calm
  | call limit down =>
    simp only [paging] at next
    split at next
    · cases next
    · rename_i open_
      split at next
      · cases next
        exact h.call faithful unique (by simpa using open_) ‹_›
      · cases next

theorem Sound.start {feeds : String → List IndexEntry}
    (ids : ∀ sid, ((feeds sid).map IndexEntry.dlqId).Nodup) : Sound f filters { feeds } where
  ids := ids
  held := ⟨[], rfl, List.nodup_nil⟩
  own := List.forall_mem_nil _
  nodup _ _ := List.nodup_nil
  once _ _ _ := ⟨List.nodup_nil, fun _ =>
    ⟨fun _ _ => List.not_mem_nil, Or.inl rfl, fun _ none_ => absurd none_ (Option.not_mem_none _),
      fun _ _ => rfl⟩⟩

end Runs

theorem no_failure_twice (f : Federation) (filters : FailedTaskFilters)
    (faithful : f.codec.Faithful) (unique : (f.services.map Service.serviceId).Nodup)
    (feeds : String → List IndexEntry)
    (ids : ∀ sid, ((feeds sid).map IndexEntry.dlqId).Nodup) (events : List Event) (w : World)
    (run : (paging f filters).exec { feeds } events = some w)
    (calm : (paging f filters).Along (Calm f filters) { feeds } events) :
    (w.returned.map failureOf).Nodup := by
  have sound : Sound f filters w := Machine.invariant_along
    (fun _ _ _ h calm next => h.step faithful unique calm next) (Sound.start ids) calm run
  exact nodup_failures sound.own sound.nodup

/-! ## One service -/

instance (f : Federation) (filters : FailedTaskFilters) (w : World) :
    (l : Event) → Decidable (Calm f filters w l)
  | .arrive _ _ => inferInstanceAs (Decidable (_ → _ → _ → _ → _))
  | .call _ _ => inferInstanceAs (Decidable True)

/-- The cursors are `{"version":2,"positions":{"svc":{"cursor":null,"skip":1}}}` and the same with
2. -/
noncomputable def oneService : Federation where
  text := plainText
  codec := tableCodec [
    (cursorValue [("svc", { skip := 1 })],
      "eyJ2ZXJzaW9uIjoyLCJwb3NpdGlvbnMiOnsic3ZjIjp7ImN1cnNvciI6bnVsbCwic2tpcCI6MX19fQ=="),
    (cursorValue [("svc", { skip := 2 })],
      "eyJ2ZXJzaW9uIjoyLCJwb3NpdGlvbnMiOnsic3ZjIjp7ImN1cnNvciI6bnVsbCwic2tpcCI6Mn19fQ==")]
  services := [{ serviceId := "svc", name := "svc" }]

def failure (dlqId failedAt : String) (score : Int) : IndexEntry where
  dlqId := dlqId
  score := score
  record := some { dlqId, failedAt }
  record_id r hr := by
    cases hr
    rfl

def twoFailures (sid : String) : List IndexEntry :=
  if sid = "svc" then [failure "b" "2026-01-01T00:00:02Z" 2, failure "a" "2026-01-01T00:00:01Z" 1]
  else []

/-- All services answer. -/
def call (limit : Nat) : Event := .call limit fun _ _ => none

theorem oneService_faithful : oneService.codec.Faithful :=
  tableCodec_faithful ⟨by decide, by decide⟩

theorem nodup_twoFailures (sid : String) : ((twoFailures sid).map IndexEntry.dlqId).Nodup := by
  unfold twoFailures
  split
  · decide
  · exact List.nodup_nil

theorem arrival_before_first_call :
    ∃ w, (paging oneService {}).exec { feeds := twoFailures }
        [.arrive "svc" (failure "c" "2026-01-01T00:00:03Z" 3), call 1, call 2] = some w ∧
      w.returned.map failureOf = [("svc", "c"), ("svc", "b"), ("svc", "a")] ∧
      (w.returned.map failureOf).Nodup := by
  have shown : ((paging oneService {}).exec { feeds := twoFailures }
      [.arrive "svc" (failure "c" "2026-01-01T00:00:03Z" 3), call 1, call 2]).map
        (·.returned.map failureOf) = some [("svc", "c"), ("svc", "b"), ("svc", "a")] := by
    decide +kernel
  obtain ⟨w, run, items⟩ := Option.map_eq_some_iff.mp shown
  exact ⟨w, run, items, no_failure_twice oneService {} oneService_faithful (by decide) twoFailures
    nodup_twoFailures _ w run (by decide +kernel)⟩

theorem arrival_inside_first_page_repeats :
    ∃ w, (paging oneService {}).exec { feeds := twoFailures }
        [call 1, .arrive "svc" (failure "c" "2026-01-01T00:00:03Z" 3), call 1] = some w ∧
      w.returned.map failureOf = [("svc", "b"), ("svc", "b")] := by
  have shown : ((paging oneService {}).exec { feeds := twoFailures }
      [call 1, .arrive "svc" (failure "c" "2026-01-01T00:00:03Z" 3), call 1]).map
        (·.returned.map failureOf) = some [("svc", "b"), ("svc", "b")] := by
    decide +kernel
  exact Option.map_eq_some_iff.mp shown

end Relayna.Studio.FailedTaskFeeds
