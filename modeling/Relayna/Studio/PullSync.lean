import Relayna.Foundation.Pages
import Relayna.Foundation.Transition
import Relayna.Observability.FeedPaging
import Relayna.Studio.Events

/-!
# Pulling the event feed of a service

`_sync_service` walks down the feed of a service, page by page, to the cursor that the last sync
has stored, and then stores the cursor it has begun at. While it walks, the feed grows at its front
and loses its oldest entries, and a request or an ingest may fail.

The walk also ends when it has read `pull_max_pages` pages. It has then not come to the stored
cursor, the newest cursor is stored all the same, and no later sync reads what is between.
-/
namespace Relayna.Studio.PullSync

open Observability Pages Transition Events

/-- The fields of `StudioEventIngestService` that a pull reads, and the service. -/
structure Puller where
  serviceId : String
  pullPageLimit : Int := 200
  pullMaxPages : Int := 25

/-! ## The feed of the service -/

/-- `get_feed` of a feed that lists its events newest first. -/
def getFeed (feed : List RelaynaServiceEvent) (after : Option String) (limit : Int) :
    RelaynaServiceEventFeedResponse :=
  let pageSize := (max 1 limit).toNat
  let candidates := (below RelaynaServiceEvent.cursor feed after).take (pageSize + 1)
  let page := candidates.take pageSize
  let nextCursor :=
    if candidates.length > pageSize then page.getLast?.map RelaynaServiceEvent.cursor else none
  ⟨page.length, page, nextCursor⟩

/-- `GET /events/feed` with `limit: int = Query(default=100, ge=1, le=500)`. -/
def feedRoute (feed : List RelaynaServiceEvent) (after : Option String) (limit : Int) :
    Option RelaynaServiceEventFeedResponse :=
  if 1 ≤ limit ∧ limit ≤ 500 then some (getFeed feed after limit) else none

/-! ## One sync -/

/-- What a sync awaits, with the variables that are still read. -/
inductive Await where
  | probe
  | page (pageIndex : Nat) (newestCursor nextAfter : Option String)
  | ingestEvents (pageIndex : Nat) (newestCursor : Option String)
      (batch : List StudioEventEnvelope) (encounteredExisting : Bool) (nextCursor : Option String)
  | setPullCursor (newestCursor : String)

/-- `first` is the feed as the sync has begun. -/
structure Sync where
  storedCursor : Option String
  first : List RelaynaServiceEvent
  awaits : Await

namespace Puller

variable (c : Puller)

def envelope (item : RelaynaServiceEvent) : StudioEventEnvelope := ⟨c.serviceId, .pull, item⟩

/-- After the loop. -/
def leave (newestCursor : Option String) : Option Await := newestCursor.map .setPullCursor

/-- `for page_index in range(self.pull_max_pages)`. -/
def enter (pageIndex : Nat) (newestCursor nextAfter : Option String) : Option Await :=
  if (pageIndex : Int) < c.pullMaxPages then some (.page pageIndex newestCursor nextAfter)
  else leave newestCursor

/-- The end of the loop's body. -/
def turn (storedCursor : Option String) (pageIndex : Nat) (newestCursor : Option String)
    (encounteredExisting : Bool) (nextCursor : Option String) : Option Await :=
  if storedCursor.isSome && encounteredExisting then leave newestCursor
  else if nextCursor = none ∨ (pageIndex : Int) = c.pullMaxPages - 1 then leave newestCursor
  else c.enter (pageIndex + 1) newestCursor nextCursor

/-- The loop's body up to the ingest. -/
def takePage (storedCursor : Option String) (pageIndex : Nat) (newestCursor : Option String)
    (payload : RelaynaServiceEventFeedResponse) : Option Await :=
  match payload.items with
  | [] => leave newestCursor
  | item :: _ =>
    let newestCursor := if pageIndex = 0 then some item.cursor else newestCursor
    let fresh := payload.items.takeWhile fun item => storedCursor ≠ some item.cursor
    let batch := fresh.map c.envelope
    let encounteredExisting := payload.items.any fun item => storedCursor = some item.cursor
    if batch.isEmpty then
      c.turn storedCursor pageIndex newestCursor encounteredExisting payload.nextCursor
    else some (.ingestEvents pageIndex newestCursor batch encounteredExisting payload.nextCursor)

/-- What follows the probe. -/
def probed (storedCursor : Option String) (probe : RelaynaServiceEventFeedResponse) :
    Option Await :=
  match probe.items with
  | [] => none
  | item :: _ => if storedCursor = some item.cursor then none else c.enter 0 none none

end Puller

/-! ## Syncs beside the feed -/

/-- `seen` lists every cursor that the feed has had, newest first, and `passed` what the syncs
have passed to `ingest_events` and it has taken. -/
structure Pull where
  feed : List RelaynaServiceEvent := []
  seen : List String := []
  pullCursor : Option String := none
  passed : List StudioEventEnvelope := []
  sync : Option Sync := none

inductive PullStep where
  /-- The service stores a new event. -/
  | grow (event : RelaynaServiceEvent)
  /-- The oldest entry leaves the feed. -/
  | evict
  /-- A sync starts and has read the pull cursor. -/
  | begin
  /-- What the sync awaits is done. -/
  | await
  /-- What the sync awaits raises. -/
  | fail

namespace Puller

variable (c : Puller)

def resume (s : Pull) (f : Sync) (awaits : Option Await) : Pull :=
  { s with sync := awaits.map fun a => { f with awaits := a } }

/-- From one await to the next. -/
def proceed (s : Pull) (f : Sync) : Option Pull :=
  match f.awaits with
  | .probe =>
    (feedRoute s.feed none 1).map fun probe => resume s f (c.probed f.storedCursor probe)
  | .page pageIndex newestCursor nextAfter =>
    (feedRoute s.feed nextAfter c.pullPageLimit).map fun payload =>
      resume s f (c.takePage f.storedCursor pageIndex newestCursor payload)
  | .ingestEvents pageIndex newestCursor batch encounteredExisting nextCursor =>
    some (resume { s with passed := s.passed ++ batch } f
      (c.turn f.storedCursor pageIndex newestCursor encounteredExisting nextCursor))
  | .setPullCursor newestCursor => some { s with pullCursor := some newestCursor, sync := none }

def next (s : Pull) : PullStep → Option Pull
  | .grow event =>
    if event.cursor ∈ s.seen then none
    else some { s with feed := event :: s.feed, seen := event.cursor :: s.seen }
  | .evict => if s.feed.isEmpty then none else some { s with feed := s.feed.dropLast }
  | .begin =>
    if s.sync.isSome then none
    else
      let awaits := if s.pullCursor.isSome then some .probe else c.enter 0 none none
      some { s with sync := awaits.map fun a => ⟨s.pullCursor, s.feed, a⟩ }
  | .await => s.sync.bind (c.proceed s)
  | .fail => s.sync.map fun _ => { s with sync := none }

def machine : Machine Pull PullStep := ⟨c.next⟩

end Puller

/-! ## The feed that Redis keeps -/

section Redis

open Recency

variable {c : RedisServiceEventFeedStore} {k : FeedKeys} {log : List String}
  {feed : List RelaynaServiceEvent}

/-- The events that the payloads of the index are read as, newest first. -/
structure Lists (c : RedisServiceEventFeedStore) (k : FeedKeys)
    (feed : List RelaynaServiceEvent) : Prop where
  cursors : feed.map RelaynaServiceEvent.cursor = k.members
  items : ∀ e ∈ feed, ∃ payload, k.payloads e.cursor = some payload ∧
    c.json.modelValidateJson payload = some e

theorem Lists.pageCursors (inv : FeedInv c k log) (lists : Lists c k feed)
    (after : Option String) (pageSize : Nat) :
    k.pageCursors (after.getD "") pageSize =
      ((below RelaynaServiceEvent.cursor feed after).take (pageSize + 1)).map
        RelaynaServiceEvent.cursor := by
  cases after with
  | none =>
    rw [Option.getD_none, inv.pageCursors_start, ← lists.cursors, List.map_take]
    rfl
  | some a =>
    rw [Option.getD_some]
    by_cases present : a ∈ k.members
    · obtain ⟨above, rest, split⟩ := List.append_of_mem present
      obtain ⟨above', rest', hf, ha, hr⟩ := List.map_eq_append_iff.mp (lists.cursors.trans split)
      obtain ⟨e, tail, he, rfl, ht⟩ := List.map_eq_cons_iff.mp hr
      have apart : e.cursor ∉ above := by
        have nodup := split ▸ inv.nodup
        exact fun mem => (List.nodup_append.mp nodup).2.2 _ mem _ List.mem_cons_self rfl
      rw [inv.pageCursors_below split, hf, he, below_split (ha ▸ apart), List.map_take, ht]
    · have unknown : k.index.score a = none := by
        by_contra known
        obtain ⟨score, hs⟩ := Option.ne_none_iff_exists'.mp known
        have entry := SortedSet.score_eq_some_iff.mp hs
        exact present (List.mem_map.mpr ⟨_, entry, rfl⟩)
      rw [below_of_absent (lists.cursors ▸ present), List.map_take, lists.cursors,
        ← inv.pageCursors_start]
      simp [FeedKeys.pageCursors, unknown]

/-- Redis answers a request with the page of the list. -/
theorem Lists.getFeed (inv : FeedInv c k log) (lists : Lists c k feed) (after : Option String)
    (limit : Int) : c.getFeed k after limit = .ok (PullSync.getFeed feed after limit) := by
  generalize hn : (max 1 limit).toNat = n
  generalize hs : (below RelaynaServiceEvent.cursor feed after).take (n + 1) = selected
  have inside : ∀ e ∈ selected, e ∈ feed := fun e he =>
    (below_suffix feed after).subset (List.mem_of_mem_take (hs ▸ he))
  obtain ⟨values, read, pairs⟩ : ∃ values, k.readScript (after.getD "") n = .ok values ∧
      values.map id =
        (k.pageCursors (after.getD "") n).map fun a => (a, (k.payloads a).getD "") := by
    refine mapM_eq_ok fun a ha => ?_
    rw [lists.pageCursors inv, hs] at ha
    obtain ⟨e, he, rfl⟩ := List.mem_map.mp ha
    obtain ⟨payload, found, -⟩ := lists.items e (inside e he)
    exact ⟨_, by simp [found], rfl⟩
  obtain ⟨items, parsed, same⟩ : ∃ items,
      selected.mapM (fun e => c.parseItem (e.cursor, (k.payloads e.cursor).getD "")) =
        .ok items ∧ items.map id = selected.map id := by
    refine mapM_eq_ok fun e he => ?_
    obtain ⟨payload, found, valid⟩ := lists.items e (inside e he)
    exact ⟨e, by simp [RedisServiceEventFeedStore.parseItem, found, valid], rfl⟩
  rw [List.map_id, lists.pageCursors inv, hs, List.map_map] at pairs
  rw [List.map_id, List.map_id] at same
  have parse : values.mapM c.parseItem = .ok selected := by
    rw [pairs, List.mapM_map, ← same]
    exact same ▸ parsed
  simp only [RedisServiceEventFeedStore.getFeed, RedisServiceEventFeedStore.parsePage, hn, read,
    parse, PullSync.getFeed, hs]

/-- A new cursor is put in front, and what exceeds `feed_maxlen` leaves at the end. -/
theorem Lists.store (inv : FeedInv c k log) (bound : 1 ≤ c.feedMaxlen) (lists : Lists c k feed)
    {event : RelaynaServiceEvent} (stored : (c.store k event).2 = true)
    (new : event.cursor ∉ k.members) :
    ∃ item, item.cursor = event.cursor ∧
      Lists c (c.store k event).1 ((item :: feed).take c.feedMaxlen.toNat) := by
  obtain ⟨-, members⟩ := inv.store bound stored
  obtain ⟨serialized, dumps, fresh, script⟩ := store_eq_true stored
  obtain ⟨item, valid, same⟩ := c.json.roundTrip event serialized dumps
  have payloads := storeScript_payloads inv fresh serialized event.cursor
  rw [← script] at payloads
  have cursors : ((item :: feed).take c.feedMaxlen.toNat).map RelaynaServiceEvent.cursor =
      (c.store k event).1.members := by
    have others : k.members.filter (· ≠ event.cursor) = k.members := by
      refine List.filter_eq_self.mpr fun x hx => ?_
      simp only [ne_eq, decide_eq_true_eq]
      rintro rfl
      exact new hx
    rw [members, touch, others, List.map_take, List.map_cons, same, lists.cursors]
  refine ⟨item, same, cursors, fun e he => ?_⟩
  rw [payloads, if_pos (cursors ▸ List.mem_map_of_mem he)]
  rcases List.mem_cons.mp (List.mem_of_mem_take he) with rfl | old
  · exact ⟨serialized, by rw [same, Function.update_self], valid⟩
  · obtain ⟨payload, found, read⟩ := lists.items e old
    have apart : e.cursor ≠ event.cursor := by
      intro equal
      exact new (lists.cursors ▸ equal ▸ List.mem_map_of_mem old)
    exact ⟨payload, by rw [Function.update_of_ne apart, found], read⟩

end Redis

theorem exec_evict (c : Puller) (s : Pull) {n : Nat} (enough : n ≤ s.feed.length) :
    c.machine.exec s (List.replicate n .evict) =
      some { s with feed := s.feed.take (s.feed.length - n) } := by
  induction n generalizing s with
  | zero => simp [Machine.exec]
  | succ n ih =>
    have some_left : s.feed.isEmpty = false := by
      rw [List.isEmpty_eq_false_iff, ← List.length_pos_iff]
      omega
    have shorter : n ≤ ({ s with feed := s.feed.dropLast } : Pull).feed.length := by
      rw [List.length_dropLast]
      omega
    rw [List.replicate_succ, Machine.exec_cons]
    simp only [Puller.machine, Puller.next, some_left, Bool.false_eq_true, if_false,
      Option.bind_some]
    rw [← Puller.machine, ih _ shorter, List.dropLast_eq_take, List.take_take, List.length_take]
    congr 3
    omega

/-- What a store of a new cursor does to the list is a growth and some evictions. -/
theorem exec_store (c : Puller) (s : Pull) {item : RelaynaServiceEvent}
    (new : item.cursor ∉ s.seen) (n : Nat) :
    c.machine.exec s (.grow item :: List.replicate (s.feed.length + 1 - n) .evict) =
      some { s with feed := (item :: s.feed).take n, seen := item.cursor :: s.seen } := by
  rw [Machine.exec_cons]
  simp only [Puller.machine, Puller.next, if_neg new, Option.bind_some]
  rw [← Puller.machine, exec_evict c _ (by simp)]
  simp only [List.length_cons, Option.some.injEq, Pull.mk.injEq, and_true]
  rw [List.take_eq_take_iff, List.length_cons]
  omega

/-! ## What a sync has to pass -/

/-- In the feed as the sync began, in the feed now, and newer than the cursor. -/
structure Due (s : Pull) (f : Sync) (stored : String) (e : RelaynaServiceEvent) : Prop where
  first : e ∈ f.first
  still : e ∈ s.feed
  newer : Before s.seen e.cursor stored

/-- When a sync of a service that has a pull cursor stores a new one, all that was due has been
passed. -/
def SkipsNothing (c : Puller) (s : Pull) : Prop :=
  ∀ f newest stored, s.sync = some f → f.awaits = .setPullCursor newest →
    f.storedCursor = some stored → ∀ e, Due s f stored e → c.envelope e ∈ s.passed

/-- The page that is read last ends the walk: it has the stored cursor, the entry after it is that
of the stored cursor or there is none, or the feed has lost all that was to be read. -/
def reaches (c : Puller) (s : Pull) : PullStep → Bool
  | .await =>
    match s.sync with
    | some ⟨some stored, _, .page pageIndex _ nextAfter⟩ =>
      let pageSize := (max 1 c.pullPageLimit).toNat
      let rest := below RelaynaServiceEvent.cursor s.feed nextAfter
      (pageIndex : Int) + 1 ≠ c.pullMaxPages ||
        (rest.take pageSize).any (fun e => e.cursor = stored) ||
        (rest.drop pageSize).head?.all (fun e => e.cursor = stored) ||
        nextAfter.any (fun a => a ∉ s.feed.map RelaynaServiceEvent.cursor)
    | _ => true
  | _ => true

/-- What is due is still to be read. -/
def Ahead (s : Pull) (after : Option String) (e : RelaynaServiceEvent) : Prop :=
  ∀ a ∈ after, Before s.seen a e.cursor

/-- The walk goes on to the next page, and the event is ahead. -/
structure Continues (c : Puller) (s : Pull) (e : RelaynaServiceEvent) (pageIndex : Nat)
    (encounteredExisting : Bool) (nextCursor : Option String) : Prop where
  unmet : encounteredExisting = false
  budget : (pageIndex : Int) + 1 ≠ c.pullMaxPages
  more : nextCursor ≠ none
  ahead : Ahead s nextCursor e

/-- Where what is due is, while the sync awaits. -/
def Awaits (c : Puller) (s : Pull) (e : RelaynaServiceEvent) : Await → Prop
  | .probe => True
  | .page pageIndex _ nextAfter =>
    (pageIndex : Int) < c.pullMaxPages ∧ (c.envelope e ∈ s.passed ∨ Ahead s nextAfter e)
  | .ingestEvents pageIndex _ batch encounteredExisting nextCursor =>
    (pageIndex : Int) < c.pullMaxPages ∧ (c.envelope e ∈ s.passed ++ batch ∨
      Continues c s e pageIndex encounteredExisting nextCursor)
  | .setPullCursor _ => c.envelope e ∈ s.passed

/-- The feed is the start of what was ever stored. -/
structure FeedOrder (s : Pull) : Prop where
  start : s.feed.map RelaynaServiceEvent.cursor <+: s.seen
  once : s.seen.Nodup

structure PullInv (c : Puller) (s : Pull) : Prop extends FeedOrder s where
  seen : ∀ f ∈ s.sync, ∀ e ∈ f.first, e.cursor ∈ s.seen
  walk : ∀ f ∈ s.sync, ∀ stored ∈ f.storedCursor, ∀ e, Due s f stored e → Awaits c s e f.awaits

theorem PullInv.skipsNothing {c : Puller} {s : Pull} (inv : PullInv c s) : SkipsNothing c s := by
  intro f newest stored here saves had e due
  have passed := inv.walk f here stored had e due
  rwa [saves] at passed

section Step

variable {c : Puller} {s t : Pull} {f : Sync} {stored : String} {e : RelaynaServiceEvent}

theorem FeedOrder.nodup (order : FeedOrder s) : (s.feed.map RelaynaServiceEvent.cursor).Nodup :=
  order.once.sublist order.start.sublist

theorem FeedOrder.before (order : FeedOrder s) {u v : List RelaynaServiceEvent}
    {a b : RelaynaServiceEvent} (split : s.feed = u ++ v) (ha : a ∈ u) (hb : b ∈ v) :
    Before s.seen a.cursor b.cursor := by
  refine Before.sublist ?_ order.start.sublist
  rw [split, List.map_append]
  exact before_append (List.mem_map_of_mem ha) (List.mem_map_of_mem hb)

/-- What is at or below the stored cursor is not due. -/
theorem Due.above (order : FeedOrder s) (due : Due s f stored e) {u v : List RelaynaServiceEvent}
    {p : RelaynaServiceEvent} (split : s.feed = u ++ p :: v) (here : p.cursor = stored) :
    e ∉ p :: v := by
  intro below
  subst here
  rcases List.mem_cons.mp below with rfl | below
  · exact not_before_self order.once due.newer
  · refine due.newer.asymm order.once (order.before (u := u ++ [p]) (v := v) ?_ ?_ below)
    · simp [split]
    · simp

/-- What the next page begins with, down to the end of the feed, has what is ahead. -/
theorem Ahead.mem_below (order : FeedOrder s) (still : e ∈ s.feed) {after : Option String}
    (ahead : Ahead s after e) : e ∈ below RelaynaServiceEvent.cursor s.feed after := by
  cases after with
  | none => exact still
  | some a =>
    obtain ⟨older, split⟩ := order.start
    refine Pages.mem_below order.nodup still (Before.of_append (v := older) ?_ ?_ ?_)
    · exact split ▸ order.once
    · exact split ▸ ahead a rfl
    · exact List.mem_map_of_mem still

/-- As long as something is ahead the feed has the cursor that the page begins below. -/
theorem Ahead.present (order : FeedOrder s) (still : e ∈ s.feed) {a : String}
    (ahead : Ahead s (some a) e) : a ∈ s.feed.map RelaynaServiceEvent.cursor := by
  obtain ⟨older, split⟩ := order.start
  refine (Before.of_append (v := older) ?_ ?_ (List.mem_map_of_mem still)).mem_left
  · exact split ▸ order.once
  · exact split ▸ ahead a rfl

/-! ### Pages -/

theorem getFeed_items (feed : List RelaynaServiceEvent) (after : Option String) (limit : Int) :
    (getFeed feed after limit).items =
      (below RelaynaServiceEvent.cursor feed after).take (max 1 limit).toNat := by
  rw [getFeed, List.take_take, min_eq_left (Nat.le_succ _)]

theorem getFeed_nextCursor {feed : List RelaynaServiceEvent} {after : Option String} {limit : Int}
    (more : (max 1 limit).toNat < (below RelaynaServiceEvent.cursor feed after).length) :
    ∃ item ∈ (getFeed feed after limit).items,
      (getFeed feed after limit).nextCursor = some item.cursor := by
  have nonempty : (getFeed feed after limit).items ≠ [] := by
    rw [getFeed_items, Ne, ← List.length_eq_zero_iff, List.length_take]
    omega
  refine ⟨_, List.getLast_mem nonempty, ?_⟩
  have longer : ((below RelaynaServiceEvent.cursor feed after).take
      ((max 1 limit).toNat + 1)).length > (max 1 limit).toNat := by
    rw [List.length_take]
    omega
  have last := List.getLast?_eq_some_getLast nonempty
  simp only [getFeed] at last
  simp only [getFeed, if_pos longer, last, Option.map_some]

/-- A page has what is ahead in its batch, or the walk goes on. -/
theorem Due.page (order : FeedOrder s) (due : Due s f stored e) {after : Option String}
    (ahead : Ahead s after e) {pageIndex : Nat} {newest : Option String}
    (here : s.sync = some ⟨some stored, f.first, .page pageIndex newest after⟩)
    (ok : reaches c s .await = true) :
    e ∈ (getFeed s.feed after c.pullPageLimit).items.takeWhile
        (fun item => some stored ≠ some item.cursor) ∨
      Continues c s e pageIndex
        ((getFeed s.feed after c.pullPageLimit).items.any
          fun item => some stored = some item.cursor)
        (getFeed s.feed after c.pullPageLimit).nextCursor := by
  obtain ⟨above, split⟩ : below RelaynaServiceEvent.cursor s.feed after <:+ s.feed :=
    below_suffix s.feed after
  generalize hn : (max 1 c.pullPageLimit).toNat = n
  generalize hr : below RelaynaServiceEvent.cursor s.feed after = rest at split
  have items : (getFeed s.feed after c.pullPageLimit).items = rest.take n := by
    rw [getFeed_items, hn, hr]
  have inside : e ∈ rest := hr ▸ ahead.mem_below order due.still
  rw [← List.take_append_drop n rest, List.mem_append] at inside
  rw [← List.take_append_drop n rest, ← List.append_assoc] at split
  have unmet (lower : e ∈ rest.drop n) : ∀ p ∈ rest.take n, p.cursor ≠ stored := by
    intro p hp same
    obtain ⟨u, v, cut⟩ := List.append_of_mem hp
    rw [cut] at split
    refine due.above order (u := above ++ u) (v := v ++ rest.drop n) ?_ same ?_
    · simp [← split]
    · simp [lower]
  rcases inside with upper | lower
  · left
    rw [items]
    rcases mem_takeWhile_or (fun item => some stored ≠ some item.cursor) upper with
      inBatch | ⟨u, p, v, cut, stops, lower⟩
    · exact inBatch
    · have same : stored = p.cursor := by simpa using stops
      rw [cut] at split
      refine absurd ?_ (due.above order (u := above ++ u) (v := v ++ rest.drop n) ?_ same.symm)
      · rw [← List.cons_append]
        exact List.mem_append_left _ lower
      · simp [← split]
  · right
    have more : (max 1 c.pullPageLimit).toNat <
        (below RelaynaServiceEvent.cursor s.feed after).length := by
      rw [hn, hr]
      by_contra short
      rw [List.drop_eq_nil_of_le (by omega)] at lower
      simp at lower
    obtain ⟨last, inPage, next⟩ := getFeed_nextCursor more
    refine ⟨?_, ?_, by simp [next], ?_⟩
    · simp only [items, List.any_eq_false, decide_eq_true_eq, Option.some.injEq]
      exact fun p hp same => unmet lower p hp same.symm
    · intro budget
      simp only [reaches, here, hn, hr, Bool.or_eq_true, decide_eq_true_eq, budget, ne_eq,
        not_true_eq_false, false_or, List.any_eq_true] at ok
      rcases ok with (⟨p, hp, same⟩ | follows) | gone
      · exact unmet lower p hp same
      · cases hd : rest.drop n with
        | nil => simp [hd] at lower
        | cons p v =>
          rw [hd] at lower split follows
          exact due.above order split.symm (by simpa using follows) lower
      · cases after with
        | none => simp at gone
        | some a => exact absurd (ahead.present order due.still) (by simpa using gone)
    · intro a ha
      obtain rfl : last.cursor = a := by simpa [next] using ha
      exact order.before split.symm (List.mem_append_right _ (items ▸ inPage)) lower

/-! ### One step -/

theorem awaits_leave {newest : Option String} (passed : c.envelope e ∈ s.passed) :
    ∀ a ∈ Puller.leave newest, Awaits c s e a := by
  intro a ha
  obtain ⟨cursor, -, rfl⟩ := Option.map_eq_some_iff.mp ha
  exact passed

theorem awaits_enter {pageIndex : Nat} {newest after : Option String}
    (h : c.envelope e ∈ s.passed ∨ ((pageIndex : Int) < c.pullMaxPages ∧ Ahead s after e)) :
    ∀ a ∈ c.enter pageIndex newest after, Awaits c s e a := by
  unfold Puller.enter
  split
  · rename_i inside
    rintro a ⟨⟩
    exact ⟨inside, h.imp_right And.right⟩
  · rename_i outside
    exact awaits_leave (h.resolve_right fun inside => outside inside.1)

/-- Before its first page a sync has everything ahead. -/
theorem awaits_first : ∀ a ∈ c.enter 0 none none, Awaits c s e a := by
  unfold Puller.enter
  split
  · rename_i inside
    rintro a ⟨⟩
    exact ⟨inside, Or.inr (by simp [Ahead])⟩
  · simp [Puller.leave]

theorem awaits_turn {pageIndex : Nat} {newest next : Option String} {found : Bool}
    (inside : (pageIndex : Int) < c.pullMaxPages)
    (h : c.envelope e ∈ s.passed ∨ Continues c s e pageIndex found next) :
    ∀ a ∈ c.turn (some stored) pageIndex newest found next, Awaits c s e a := by
  unfold Puller.turn
  split
  · rename_i met
    refine awaits_leave (h.resolve_right fun on => ?_)
    simp [on.unmet] at met
  · split
    · rename_i ends
      refine awaits_leave (h.resolve_right fun on => ?_)
      rcases ends with none_left | last
      · exact on.more none_left
      · exact on.budget (by omega)
    · refine awaits_enter (h.imp_right fun on => ⟨?_, on.ahead⟩)
      have := on.budget
      push_cast
      omega

theorem awaits_takePage (order : FeedOrder s) (due : Due s f stored e) {after : Option String}
    {pageIndex : Nat} {newest : Option String}
    (here : s.sync = some ⟨some stored, f.first, .page pageIndex newest after⟩)
    (ok : reaches c s .await = true) (inside : (pageIndex : Int) < c.pullMaxPages)
    (h : c.envelope e ∈ s.passed ∨ Ahead s after e) :
    ∀ a ∈ c.takePage (some stored) pageIndex newest (getFeed s.feed after c.pullPageLimit),
      Awaits c s e a := by
  have page := h.imp_right fun ahead => due.page order ahead here ok
  unfold Puller.takePage
  split
  · rename_i empty
    refine awaits_leave (h.resolve_right fun ahead => ?_)
    have some_left := ahead.mem_below order due.still
    rw [getFeed_items, List.take_eq_nil_iff] at empty
    rcases empty with none_left | none_left
    · omega
    · simp [none_left] at some_left
  · rename_i item rest _
    dsimp only
    generalize (if pageIndex = 0 then some item.cursor else newest) = newest'
    split
    · rename_i empty
      refine awaits_turn inside (page.imp_right fun rest => rest.resolve_left fun mem => ?_)
      rw [List.isEmpty_iff, List.map_eq_nil_iff] at empty
      rw [empty] at mem
      cases mem
    · rintro a ⟨⟩
      refine ⟨inside, ?_⟩
      rcases page with passed | inBatch | on
      · exact Or.inl (List.mem_append_left _ passed)
      · exact Or.inl (List.mem_append_right _ (List.mem_map_of_mem inBatch))
      · exact Or.inr on

theorem Awaits.mono {a : Await} (h : Awaits c s e a) (passed : s.passed = t.passed)
    (seen : s.seen.Sublist t.seen) : Awaits c t e a := by
  have ahead {after : Option String} (here : Ahead s after e) : Ahead t after e :=
    fun a ha => (here a ha).sublist seen
  cases a with
  | probe => trivial
  | page pageIndex newest after => exact ⟨h.1, passed ▸ h.2.imp_right ahead⟩
  | ingestEvents pageIndex newest batch found next =>
    exact ⟨h.1, passed ▸ h.2.imp_right fun on => { on with ahead := ahead on.ahead }⟩
  | setPullCursor newest =>
    show c.envelope e ∈ t.passed
    exact passed ▸ h

theorem PullInv.resume {s' : Pull} {awaits : Option Await} (inv : PullInv c s)
    (here : s.sync = some f) (feed : s'.feed = s.feed) (seen : s'.seen = s.seen)
    (walk : ∀ stored ∈ f.storedCursor, ∀ e, Due s f stored e → ∀ a ∈ awaits, Awaits c s' e a) :
    PullInv c (Puller.resume s' f awaits) := by
  refine ⟨⟨?_, ?_⟩, fun g hg e he => ?_, fun g hg stored had e due => ?_⟩
  · show s'.feed.map _ <+: s'.seen
    rw [feed, seen]
    exact inv.start
  · show s'.seen.Nodup
    exact seen ▸ inv.once
  · obtain ⟨a, -, rfl⟩ := Option.map_eq_some_iff.mp hg
    show e.cursor ∈ s'.seen
    exact seen ▸ inv.seen f here e he
  · obtain ⟨a, ha, rfl⟩ := Option.map_eq_some_iff.mp hg
    have due' : Due s f stored e := ⟨due.first, feed ▸ due.still, seen ▸ due.newer⟩
    exact (walk stored had e due' a ha).mono rfl (List.Sublist.refl _)

theorem PullInv.proceed (inv : PullInv c s) (here : s.sync = some f)
    (ok : reaches c s .await = true) (h : c.proceed s f = some t) : PullInv c t := by
  obtain ⟨storedCursor, first, awaits⟩ := f
  have walk := inv.walk _ here
  cases awaits with
  | probe =>
    simp only [Puller.proceed, Option.map_eq_some_iff] at h
    obtain ⟨probe, -, rfl⟩ := h
    refine inv.resume here rfl rfl fun stored had e due a ha => ?_
    unfold Puller.probed at ha
    split at ha
    · cases ha
    · exact awaits_first a (Option.ite_none_left_eq_some.mp ha).2
  | page pageIndex newest after =>
    simp only [Puller.proceed, feedRoute, Option.map_eq_some_iff,
      Option.ite_none_right_eq_some] at h
    obtain ⟨payload, ⟨-, answer⟩, rfl⟩ := h
    obtain rfl := Option.some.inj answer
    refine inv.resume here rfl rfl fun stored had e due => ?_
    obtain rfl : storedCursor = some stored := had
    obtain ⟨inside, now⟩ := walk stored rfl e due
    exact awaits_takePage inv.toFeedOrder due here ok inside now
  | ingestEvents pageIndex newest batch found next =>
    obtain rfl := Option.some.inj h
    refine inv.resume here rfl rfl fun stored had e due => ?_
    obtain rfl : storedCursor = some stored := had
    obtain ⟨inside, now⟩ := walk stored rfl e due
    exact awaits_turn inside (now.imp_right fun on => ⟨on.unmet, on.budget, on.more, on.ahead⟩)
  | setPullCursor newest =>
    obtain rfl := Option.some.inj h
    exact ⟨⟨inv.start, inv.once⟩, by simp, by simp⟩

theorem PullInv.next {l : PullStep} (inv : PullInv c s) (ok : reaches c s l = true)
    (h : c.next s l = some t) : PullInv c t := by
  cases l with
  | grow event =>
    obtain ⟨new, h⟩ := Option.ite_none_left_eq_some.mp h
    obtain rfl := Option.some.inj h
    have wider := List.sublist_cons_self event.cursor s.seen
    refine ⟨⟨?_, List.nodup_cons.mpr ⟨new, inv.once⟩⟩, fun f hf e he => ?_,
      fun f hf stored had e due => ?_⟩
    · exact List.prefix_cons_inj event.cursor |>.mpr inv.start
    · exact wider.subset (inv.seen f hf e he)
    · -- What was in the feed as the sync began is older than the new event.
      have other : e.cursor ≠ event.cursor := fun same =>
        new (same ▸ inv.seen f hf e due.first)
      have due' : Due s f stored e := by
        refine ⟨due.first, (List.mem_cons.mp due.still).resolve_left ?_, ?_⟩
        · rintro rfl
          exact other rfl
        · exact (before_cons.mp due.newer).resolve_left fun front => other front.1
      exact (inv.walk f hf stored had e due').mono rfl wider
  | evict =>
    obtain ⟨-, h⟩ := Option.ite_none_left_eq_some.mp h
    obtain rfl := Option.some.inj h
    refine ⟨⟨?_, inv.once⟩, inv.seen, fun f hf stored had e due => ?_⟩
    · exact ((List.dropLast_prefix s.feed).map _).trans inv.start
    · have due' : Due s f stored e :=
        ⟨due.first, List.mem_of_mem_dropLast due.still, due.newer⟩
      exact (inv.walk f hf stored had e due').mono rfl (List.Sublist.refl _)
  | begin =>
    obtain ⟨-, h⟩ := Option.ite_none_left_eq_some.mp h
    obtain rfl := Option.some.inj h
    refine ⟨⟨inv.start, inv.once⟩, fun f hf e he => ?_, fun f hf stored had e due => ?_⟩
    · obtain ⟨a, -, rfl⟩ := Option.map_eq_some_iff.mp hf
      exact inv.start.subset (List.mem_map_of_mem he)
    · obtain ⟨a, ha, rfl⟩ := Option.map_eq_some_iff.mp hf
      split at ha
      · obtain rfl := Option.some.inj ha
        trivial
      · exact awaits_first a ha
  | await =>
    obtain ⟨f, here, h⟩ := Option.bind_eq_some_iff.mp h
    exact inv.proceed here ok h
  | fail =>
    obtain ⟨f, -, rfl⟩ := Option.map_eq_some_iff.mp h
    exact ⟨⟨inv.start, inv.once⟩, by simp, by simp⟩

end Step

/-- In every run in which the last page of a walk ends it, no sync stores a cursor before it has
passed what was due. -/
theorem pull_sync_skips_nothing (c : Puller) {ls : List PullStep} {s : Pull}
    (reach : c.machine.Along (fun s l => reaches c s l = true) {} ls)
    (run : c.machine.exec {} ls = some s) : SkipsNothing c s := by
  have start : PullInv c {} := ⟨⟨by simp, by simp⟩, by simp, by simp⟩
  exact (Machine.invariant_along (fun _ _ _ inv ok taken => inv.next ok taken) start reach
    run).skipsNothing

theorem singleton_ne_empty (letter : Char) : String.singleton letter ≠ "" := by
  intro same
  simpa using congrArg String.toList same

def statusEvent (letter : Char) : RelaynaServiceEvent where
  cursor := String.singleton letter
  cursor_ne := singleton_ne_empty letter
  taskId := "task"
  eventType := "status.completed"
  sourceKind := .status
  component := some "status"
  timestamp := none
  eventId := some (String.singleton letter)
  correlationId := none
  parentTaskId := none
  payload := []

/-- A sync stores a cursor, two events come, and another sync goes on. -/
def secondSync (awaits : Nat) : List PullStep :=
  [.grow (statusEvent 'a'), .begin, .await, .await, .await, .grow (statusEvent 'b'),
    .grow (statusEvent 'c'), .begin] ++ List.replicate awaits .await

theorem pull_sync_skips_nothing_second_sync :
    ∃ s, (Puller.machine ⟨"service", 1, 2⟩).exec {} (secondSync 5) = some s ∧
      SkipsNothing ⟨"service", 1, 2⟩ s := by
  have reach : (Puller.machine ⟨"service", 1, 2⟩).Along
      (fun s l => reaches ⟨"service", 1, 2⟩ s l = true) {} (secondSync 5) := by decide
  exact ⟨_, rfl, pull_sync_skips_nothing _ reach rfl⟩

theorem newest_is_stored_past_the_budget :
    ¬∀ s, (Puller.machine ⟨"service", 1, 1⟩).exec {} (secondSync 3) = some s →
      SkipsNothing ⟨"service", 1, 1⟩ s := by
  intro claim
  have due := claim _ rfl _ "c" "a" rfl rfl rfl (statusEvent 'b')
    ⟨.tail _ (.head _), .tail _ (.head _), .cons _ (List.Sublist.refl _)⟩
  have passed := List.mem_map_of_mem (f := fun x => x.event.cursor) due
  revert passed
  decide

end Relayna.Studio.PullSync
