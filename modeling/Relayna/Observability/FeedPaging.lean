import Relayna.Foundation.Keyed
import Relayna.Foundation.Recency
import Relayna.Foundation.Transition
import Relayna.Observability.Feed

/-!
# The feed as a list, and reading it page by page

The keys of the feed are one list: the most recently stored cursors, newest first, at most
`feed_maxlen` of them. Storing moves a cursor to the front of it. A reader that follows
`next_cursor` walks down this list while others store: what is stored comes in above its place
and what is evicted goes below, so it visits what was there at its first read, unless the cursor
it stands on is moved.
-/
namespace Relayna.Observability

open Contracts Python Recency Storage Transition

namespace FeedKeys

def members (k : FeedKeys) : List String := k.index.entries.map Prod.fst

end FeedKeys

/-- `log` lists the cursors as they were stored, oldest first. -/
structure FeedInv (c : RedisServiceEventFeedStore) (k : FeedKeys) (log : List String) : Prop where
  descending : k.index.Descending
  counted : ∀ e ∈ k.index.entries, e.2 ≤ k.sequence
  recent : k.members = (recency log).take c.feedMaxlen.toNat
  fields : ∀ cursor, cursor ∈ k.members ↔ (k.payloads cursor).isSome
  written : ∀ cursor serialized, k.payloads cursor = some serialized →
    ∃ event : RelaynaServiceEvent,
      event.cursor = cursor ∧ c.json.modelDumpJson event = some serialized

variable {c : RedisServiceEventFeedStore} {k : FeedKeys} {log : List String}

theorem FeedInv.initial : FeedInv c .init [] := by
  refine ⟨List.Pairwise.nil, ?_, ?_, ?_, ?_⟩ <;>
    simp [FeedKeys.init, FeedKeys.members, SortedSet.empty, recency]

theorem FeedInv.newestFirst_eq (h : FeedInv c k log) : k.newestFirst = k.members := by
  rw [FeedKeys.newestFirst, h.descending.sorted_eq, List.reverse_reverse]
  rfl

theorem FeedInv.nodup (_ : FeedInv c k log) : k.members.Nodup := k.index.nodup

/-- `HDEL` of every evicted cursor. -/
theorem foldl_update_none (evicted : List String) (payloads : String → Option String)
    (x : String) :
    evicted.foldl (fun payloads cursor => Function.update payloads cursor none) payloads x =
      if x ∈ evicted then none else payloads x := by
  induction evicted generalizing payloads with
  | nil => rfl
  | cons e rest ih =>
    rw [List.foldl_cons, ih]
    by_cases hx : x = e <;> by_cases hr : x ∈ rest <;> simp [hx, hr]

/-- The index after the script has stored a cursor. -/
theorem storeScript_entries (h : FeedInv c k log) {eventKey serialized cursor : String}
    (fresh : k.events eventKey = false) (bound : 1 ≤ c.feedMaxlen) :
    (k.storeScript eventKey serialized cursor c.feedMaxlen).1.index.entries =
      (k.index.add cursor (k.sequence + 1)).entries.take c.feedMaxlen.toNat := by
  have descending : (k.index.add cursor (k.sequence + 1)).Descending :=
    h.descending.add fun e he => Int.lt_add_one_of_le (h.counted e he)
  simp only [FeedKeys.storeScript, fresh, Bool.false_eq_true, if_false]
  split
  · rename_i excess
    have keep : (k.index.add cursor (k.sequence + 1)).card -
        (((k.index.add cursor (k.sequence + 1)).card : Int) - c.feedMaxlen).toNat =
          c.feedMaxlen.toNat := by omega
    rw [descending.removeLowest_entries, keep]
  · rename_i excess
    refine (List.take_of_length_le ?_).symm
    change (k.index.add cursor (k.sequence + 1)).card ≤ _
    omega

theorem storeScript_members (h : FeedInv c k log) {eventKey serialized cursor : String}
    (fresh : k.events eventKey = false) (bound : 1 ≤ c.feedMaxlen) :
    (k.storeScript eventKey serialized cursor c.feedMaxlen).1.members =
      touch c.feedMaxlen.toNat cursor k.members := by
  rw [FeedKeys.members, storeScript_entries h fresh bound, List.map_take, SortedSet.add_members]
  rfl

/-- The payloads after the script has stored a cursor are those of the index. -/
theorem storeScript_payloads (h : FeedInv c k log) {eventKey : String}
    (fresh : k.events eventKey = false) (serialized cursor x : String) :
    (k.storeScript eventKey serialized cursor c.feedMaxlen).1.payloads x =
      if x ∈ (k.storeScript eventKey serialized cursor c.feedMaxlen).1.members then
        Function.update k.payloads cursor (some serialized) x
      else none := by
  have inside : x ∉ (k.index.add cursor (k.sequence + 1)).entries.map Prod.fst →
      Function.update k.payloads cursor (some serialized) x = none := by
    intro absent
    rw [SortedSet.add_members] at absent
    simp only [List.mem_cons, not_or] at absent
    rw [Function.update_of_ne absent.1]
    have outside : x ∉ k.members := fun hx =>
      absent.2 (List.mem_filter.mpr ⟨hx, by simpa using absent.1⟩)
    rw [h.fields, Option.isSome_iff_ne_none, not_not] at outside
    exact outside
  simp only [FeedKeys.storeScript, fresh, Bool.false_eq_true, if_false]
  split
  · simp only [FeedKeys.members, foldl_update_none, SortedSet.mem_removeLowest]
    grind
  · simp only [FeedKeys.members]
    grind

theorem FeedInv.storeScript (h : FeedInv c k log) (bound : 1 ≤ c.feedMaxlen)
    {event : RelaynaServiceEvent} {eventKey serialized : String}
    (dumps : c.json.modelDumpJson event = some serialized) (fresh : k.events eventKey = false) :
    FeedInv c (k.storeScript eventKey serialized event.cursor c.feedMaxlen).1
      (log ++ [event.cursor]) := by
  have above : ∀ e ∈ k.index.entries, e.2 < k.sequence + 1 := fun e he =>
    Int.lt_add_one_of_le (h.counted e he)
  have payloads := storeScript_payloads h fresh serialized event.cursor
  have sequence :
      (k.storeScript eventKey serialized event.cursor c.feedMaxlen).1.sequence =
        k.sequence + 1 := by
    simp only [FeedKeys.storeScript, fresh, Bool.false_eq_true, if_false]
    split <;> rfl
  obtain ⟨n, hn⟩ : ∃ n, c.feedMaxlen.toNat = n + 1 := ⟨c.feedMaxlen.toNat - 1, by omega⟩
  constructor
  · rw [SortedSet.Descending, storeScript_entries h fresh bound]
    exact (h.descending.add above).sublist (List.take_sublist _ _)
  · intro e he
    rw [storeScript_entries h fresh bound] at he
    have he := List.mem_of_mem_take he
    rw [sequence]
    rcases List.mem_cons.mp he with rfl | he
    · exact le_rfl
    · exact (above e (List.mem_of_mem_filter he)).le
  · rw [storeScript_members h fresh bound, h.recent, hn]
    exact touch_take_recency n log event.cursor
  · intro x
    rw [payloads]
    constructor
    · intro hx
      rw [if_pos hx]
      rw [storeScript_members h fresh bound] at hx
      by_cases he : x = event.cursor
      · simp [he]
      · rw [Function.update_of_ne he]
        have hx := List.mem_of_mem_take hx
        simp only [List.mem_cons, he, false_or] at hx
        exact (h.fields x).mp (List.mem_of_mem_filter hx)
    · intro hx
      by_contra outside
      rw [if_neg outside] at hx
      simp at hx
  · intro x serialized' hx
    rw [payloads] at hx
    split at hx
    · by_cases he : x = event.cursor
      · subst he
        rw [Function.update_self] at hx
        exact ⟨event, rfl, Option.some.inj hx ▸ dumps⟩
      · rw [Function.update_of_ne he] at hx
        exact h.written x serialized' hx
    · cases hx

/-! ## Reading a page -/

theorem mapM_eq_ok {α β γ ε : Type} {f : α → Except ε β} {g : β → γ} {g' : α → γ} {l : List α}
    (each : ∀ x ∈ l, ∃ y, f x = .ok y ∧ g y = g' x) :
    ∃ ys, l.mapM f = .ok ys ∧ ys.map g = l.map g' := by
  induction l with
  | nil => exact ⟨[], rfl, rfl⟩
  | cons x l ih =>
    obtain ⟨y, hy, same⟩ := each x List.mem_cons_self
    obtain ⟨ys, hys, rest⟩ := ih fun x hx => each x (List.mem_cons_of_mem _ hx)
    refine ⟨y :: ys, ?_, by simp [same, rest]⟩
    rw [List.mapM_cons, hy, hys]
    rfl

theorem FeedInv.pageCursors_subset (h : FeedInv c k log) (after : String) (pageSize : Nat) :
    k.pageCursors after pageSize ⊆ k.members := by
  have all : k.index.highest (pageSize + 1) ⊆ k.members := by
    rw [h.descending.highest_eq, List.map_take]
    exact List.take_subset _ _
  unfold FeedKeys.pageCursors
  split
  · exact all
  · split
    · exact all
    · rename_i score hs
      obtain ⟨above, below, split⟩ := List.append_of_mem (SortedSet.score_eq_some_iff.mp hs)
      rw [h.descending.highestBelow_eq split, List.map_take, FeedKeys.members, split]
      intro x hx
      have hx := List.mem_of_mem_take hx
      simp [List.mem_map.mp hx]

/-- A page has the selected cursors: no payload is missing and none is another cursor's. -/
theorem FeedInv.getFeed (h : FeedInv c k log) (after : Option String) (limit : Int) :
    ∃ response, c.getFeed k after limit = .ok response ∧
      response.items.map RelaynaServiceEvent.cursor =
        (k.pageCursors (after.getD "") (max 1 limit).toNat).take (max 1 limit).toNat ∧
      response.nextCursor =
        if (k.pageCursors (after.getD "") (max 1 limit).toNat).length > (max 1 limit).toNat then
          ((k.pageCursors (after.getD "") (max 1 limit).toNat).take (max 1 limit).toNat).getLast?
        else none := by
  have inside := h.pageCursors_subset (after.getD "") (max 1 limit).toNat
  obtain ⟨values, hv, cursors⟩ : ∃ values,
      k.readScript (after.getD "") (max 1 limit).toNat = .ok values ∧
        values.map id =
          (k.pageCursors (after.getD "") (max 1 limit).toNat).map
            fun cursor => (cursor, (k.payloads cursor).getD "") := by
    refine mapM_eq_ok fun cursor hc => ?_
    obtain ⟨payload, hp⟩ := Option.isSome_iff_exists.mp ((h.fields cursor).mp (inside hc))
    exact ⟨(cursor, payload), by simp [hp], by simp [hp]⟩
  rw [List.map_id] at cursors
  obtain ⟨items, hi, named⟩ : ∃ items, values.mapM c.parseItem = .ok items ∧
      items.map RelaynaServiceEvent.cursor = values.map Prod.fst := by
    refine mapM_eq_ok fun entry he => ?_
    rw [cursors] at he
    obtain ⟨cursor, hc, rfl⟩ := List.mem_map.mp he
    obtain ⟨payload, hp⟩ := Option.isSome_iff_exists.mp ((h.fields cursor).mp (inside hc))
    obtain ⟨event, rfl, dumps⟩ := h.written cursor payload hp
    obtain ⟨item, valid, same⟩ := c.json.roundTrip event payload dumps
    exact ⟨item, by simp [RedisServiceEventFeedStore.parseItem, hp, valid, same], same⟩
  have all : items.map RelaynaServiceEvent.cursor =
      k.pageCursors (after.getD "") (max 1 limit).toNat := by
    rw [named, cursors, List.map_map]
    exact List.map_id _
  have read : c.getFeed k after limit = .ok
      ⟨(items.take (max 1 limit).toNat).length, items.take (max 1 limit).toNat,
        if items.length > (max 1 limit).toNat then
          (items.take (max 1 limit).toNat).getLast?.map RelaynaServiceEvent.cursor
        else none⟩ := by
    simp only [RedisServiceEventFeedStore.getFeed, hv, RedisServiceEventFeedStore.parsePage, hi]
  refine ⟨_, read, ?_, ?_⟩
  · rw [← all, List.map_take]
  · rw [← all, List.length_map, ← List.map_take, List.getLast?_map]

/-! ## Following `next_cursor` -/

/-- Where the reader is: it has not begun, it follows a cursor, or there was no next one. -/
inductive Place where
  | unread
  | following (cursor : String)
  | finished
  deriving DecidableEq, Repr

/-- One reader beside the stores. `log` lists the cursors stored since the feed was last empty;
`visited` is what the reader has been given, `first` the feed at its first read and `moved` the
cursors stored or evicted since. -/
structure Paging where
  keys : FeedKeys
  log : List String
  place : Place
  visited : List String
  first : List String
  moved : List String

namespace Paging

def init : Paging := ⟨.init, [], .unread, [], [], []⟩

/-- The `after` of the next read. -/
def after (t : Paging) : Option String :=
  match t.place with
  | .following cursor => some cursor
  | _ => none

/-- The page is taken in. -/
def turn (response : RelaynaServiceEventFeedResponse) (t : Paging) : Paging :=
  { t with
    visited := t.visited ++ response.items.map RelaynaServiceEvent.cursor
    first := if t.place = .unread then t.keys.newestFirst else t.first
    moved := if t.place = .unread then [] else t.moved
    place := match response.nextCursor with
      | some cursor => .following cursor
      | none => .finished }

end Paging

inductive FeedStep where
  | store (event : RelaynaServiceEvent)
  /-- The key that keeps an event from being stored again expires. -/
  | expireEvent (eventKey : String)
  /-- The index, the payloads and the sequence expire; one script sets their time to live. -/
  | expireFeed
  | read (limit : Int)

def paging (c : RedisServiceEventFeedStore) : Machine Paging FeedStep where
  next t l := match l with
    | .store event =>
      let after := c.store t.keys event
      if after.2 then
        some { t with
          keys := after.1
          log := t.log ++ [event.cursor]
          moved := t.moved ++ event.cursor :: t.keys.newestFirst.filter (· ∉ after.1.newestFirst) }
      else some t
    | .expireEvent eventKey =>
      some { t with keys := { t.keys with events := Function.update t.keys.events eventKey false } }
    | .expireFeed =>
      some { t with
        keys := { t.keys with sequence := 0, index := .empty, payloads := fun _ => none }
        log := []
        moved := t.moved ++ t.keys.newestFirst }
    | .read limit =>
      if t.place = .finished then none
      else match c.getFeed t.keys t.after limit with
        | .ok response => some (t.turn response)
        | .error _ => none

/-- What holds of the feed itself. -/
structure FeedSound (c : RedisServiceEventFeedStore) (t : Paging) : Prop where
  fields : ∀ cursor, cursor ∈ t.keys.newestFirst ↔ (t.keys.payloads cursor).isSome
  once : t.keys.newestFirst.Nodup
  scores : (t.keys.index.entries.map Prod.snd).Nodup
  size : (t.keys.index.card : Int) ≤ c.feedMaxlen
  recent : t.keys.newestFirst = (recency t.log).take c.feedMaxlen.toNat
  reads : ∀ after limit, ∃ response, c.getFeed t.keys after limit = .ok response

theorem FeedInv.sound {t : Paging} (h : FeedInv c t.keys t.log) (bound : 1 ≤ c.feedMaxlen) :
    FeedSound c t := by
  constructor
  · rw [h.newestFirst_eq]
    exact h.fields
  · rw [h.newestFirst_eq]
    exact h.nodup
  · rw [List.Nodup, List.pairwise_map]
    exact h.descending.imp fun hs => ne_of_gt hs
  · have length : t.keys.members.length ≤ c.feedMaxlen.toNat := by
      rw [h.recent]
      exact List.length_take_le _ _
    rw [FeedKeys.members, List.length_map] at length
    rw [SortedSet.card]
    omega
  · rw [h.newestFirst_eq]
    exact h.recent
  · intro after limit
    obtain ⟨response, read, -⟩ := h.getFeed after limit
    exact ⟨response, read⟩

/-- The reader has what it was given in the order of the feed at its first read, and, once it is
finished, all of that but what was moved. -/
structure Walked (t : Paging) : Prop where
  ordered : t.visited.Sublist t.first
  once : t.first.Nodup
  complete : t.place = .finished → ∀ cursor ∈ t.first, cursor ∉ t.moved → cursor ∈ t.visited

/-- The cursor that the reader follows is neither stored again nor evicted. -/
def Undisturbed (c : RedisServiceEventFeedStore) (t : Paging) (l : FeedStep) : Prop :=
  match t.place, l with
  | .following cursor, .store event => (c.store t.keys event).2 = true →
    event.cursor ≠ cursor ∧ cursor ∈ (c.store t.keys event).1.newestFirst
  | .following _, .expireFeed => False
  | _, _ => True

/-- The cursor that the reader follows is not evicted. -/
def Unevicted (c : RedisServiceEventFeedStore) (t : Paging) (l : FeedStep) : Prop :=
  match t.place, l with
  | .following cursor, .store event => cursor ∈ (c.store t.keys event).1.newestFirst
  | .following _, .expireFeed => False
  | _, _ => True

instance (c : RedisServiceEventFeedStore) (t : Paging) (l : FeedStep) :
    Decidable (Undisturbed c t l) := by
  unfold Undisturbed
  split <;> infer_instance

instance (c : RedisServiceEventFeedStore) (t : Paging) (l : FeedStep) :
    Decidable (Unevicted c t l) := by
  unfold Unevicted
  split <;> infer_instance

/-- What the reader has been given and what it has before it is the feed of its first read, less
what was moved. -/
structure Walking (first visited below moved : List String) : Prop where
  ordered : (visited ++ below).Sublist first
  once : first.Nodup
  covered : ∀ x ∈ first, x ∈ visited ∨ x ∈ below ∨ x ∈ moved

def WalkInv (t : Paging) : Prop :=
  match t.place with
  | .unread => t.visited = [] ∧ t.first = []
  | .following cursor =>
    ∃ above below, t.keys.members = above ++ cursor :: below ∧
      Walking t.first t.visited below t.moved
  | .finished => Walking t.first t.visited [] t.moved

theorem WalkInv.walked {t : Paging} (h : WalkInv t) : Walked t := by
  unfold WalkInv at h
  split at h
  · rename_i unread
    exact ⟨by simp [h.1], by simp [h.2], by simp [unread]⟩
  · rename_i cursor following
    obtain ⟨above, below, -, walking⟩ := h
    refine ⟨(List.sublist_append_left _ _).trans walking.ordered, walking.once, ?_⟩
    simp [following]
  · refine ⟨by simpa using h.ordered, h.once, fun _ x hx still => ?_⟩
    rcases h.covered x hx with visited | none | moved
    · exact visited
    · simp at none
    · exact absurd moved still

/-- A store that takes effect ran its script. -/
theorem store_eq_true {event : RelaynaServiceEvent} (h : (c.store k event).2 = true) :
    ∃ serialized, c.json.modelDumpJson event = some serialized ∧
      k.events (c.eventKey event.cursor) = false ∧
      c.store k event =
        k.storeScript (c.eventKey event.cursor) serialized event.cursor c.feedMaxlen := by
  unfold RedisServiceEventFeedStore.store at h ⊢
  split at h
  · simp at h
  · rename_i serialized dumps
    refine ⟨serialized, dumps, ?_, rfl⟩
    by_contra present
    rw [Bool.not_eq_false] at present
    simp [FeedKeys.storeScript, present] at h

theorem FeedInv.store (h : FeedInv c k log) (bound : 1 ≤ c.feedMaxlen)
    {event : RelaynaServiceEvent} (stored : (c.store k event).2 = true) :
    FeedInv c (c.store k event).1 (log ++ [event.cursor]) ∧
      (c.store k event).1.members = touch c.feedMaxlen.toNat event.cursor k.members := by
  obtain ⟨serialized, dumps, fresh, script⟩ := store_eq_true stored
  rw [script]
  exact ⟨h.storeScript bound dumps fresh, storeScript_members h fresh bound⟩

theorem FeedInv.ne_empty (h : FeedInv c k log) {cursor : String} (hc : cursor ∈ k.members) :
    cursor ≠ "" := by
  obtain ⟨serialized, hs⟩ := Option.isSome_iff_exists.mp ((h.fields cursor).mp hc)
  obtain ⟨event, rfl, -⟩ := h.written cursor serialized hs
  exact event.cursor_ne

/-- From the first read: the start of the feed. -/
theorem FeedInv.pageCursors_start (h : FeedInv c k log) (n : Nat) :
    k.pageCursors "" n = k.members.take (n + 1) := by
  rw [FeedKeys.pageCursors, if_pos rfl, h.descending.highest_eq, List.map_take]
  rfl

/-- From a later read: what is below the cursor. -/
theorem FeedInv.pageCursors_below (h : FeedInv c k log) {cursor : String}
    {above below : List String}
    (split : k.members = above ++ cursor :: below) (n : Nat) :
    k.pageCursors cursor n = below.take (n + 1) := by
  have inside : cursor ∈ k.members := by simp [split]
  obtain ⟨entries, rest, he, ha, hr⟩ := List.map_eq_append_iff.mp split
  obtain ⟨⟨a, score⟩, tail, hrest, rfl, rfl⟩ := List.map_eq_cons_iff.mp hr
  rw [hrest] at he
  have found : k.index.score a = some score := SortedSet.score_eq_some_iff.mpr (by simp [he])
  rw [FeedKeys.pageCursors, if_neg (h.ne_empty inside)]
  simp only [found]
  rw [h.descending.highestBelow_eq he, List.map_take]

/-- Taking in a page: the reader moves down by what it was given, or is at the end. -/
theorem Walking.turn {t : Paging} {below : List String}
    (walking : Walking t.first t.visited below t.moved)
    (begun : t.place ≠ .unread) {above : List String} (split : t.keys.members = above ++ below)
    {response : RelaynaServiceEventFeedResponse} {n : Nat} (pos : 0 < n)
    (items : response.items.map RelaynaServiceEvent.cursor = (below.take (n + 1)).take n)
    (next : response.nextCursor =
      if (below.take (n + 1)).length > n then ((below.take (n + 1)).take n).getLast? else none) :
    WalkInv (t.turn response) := by
  have page : response.items.map RelaynaServiceEvent.cursor = below.take n := by
    rw [items, List.take_take, min_eq_left (by omega)]
  rw [List.take_take, min_eq_left (by omega)] at next
  have walked : Walking (t.turn response).first (t.turn response).visited (below.drop n)
      (t.turn response).moved := by
    refine ⟨?_, ?_, ?_⟩
    · simpa [Paging.turn, begun, page] using walking.ordered
    · simpa [Paging.turn, begun] using walking.once
    · intro x hx
      simp only [Paging.turn, if_neg begun, page] at hx ⊢
      rcases walking.covered x hx with visited | ahead | moved
      · exact Or.inl (List.mem_append_left _ visited)
      · rw [← List.take_append_drop n below, List.mem_append] at ahead
        exact ahead.elim (fun h => Or.inl (List.mem_append_right _ h)) fun h => Or.inr (Or.inl h)
      · exact Or.inr (Or.inr moved)
  by_cases more : (below.take (n + 1)).length > n
  · rw [if_pos more] at next
    have long : n < below.length := by
      rw [List.length_take] at more
      omega
    have nonempty : below.take n ≠ [] := by
      rw [Ne, ← List.length_eq_zero_iff, List.length_take]
      omega
    rw [List.getLast?_eq_some_getLast nonempty] at next
    have place : (t.turn response).place = .following ((below.take n).getLast nonempty) := by
      simp [Paging.turn, next]
    simp only [WalkInv, place]
    refine ⟨above ++ (below.take n).dropLast, below.drop n, ?_, walked⟩
    rw [List.append_cons, List.append_assoc above, List.dropLast_concat_getLast nonempty,
      List.append_assoc, List.take_append_drop]
    exact split
  · rw [if_neg more] at next
    have short : below.drop n = [] := by
      rw [List.length_take] at more
      exact List.drop_eq_nil_of_le (by omega)
    rw [short] at walked
    have place : (t.turn response).place = .finished := by simp [Paging.turn, next]
    simp only [WalkInv, place]
    exact walked

theorem WalkInv.read {t u : Paging} (h : WalkInv t) (feed : FeedInv c t.keys t.log) {limit : Int}
    (hs : (paging c).next t (.read limit) = some u) : WalkInv u := by
  simp only [paging, Option.ite_none_left_eq_some] at hs
  obtain ⟨going, hs⟩ := hs
  obtain ⟨response, read, items, next⟩ := feed.getFeed t.after limit
  rw [read] at hs
  obtain rfl := Option.some.inj hs
  have pos : 0 < (max 1 limit).toNat := by omega
  cases hp : t.place with
  | unread =>
    simp only [WalkInv, hp] at h
    simp only [Paging.after, hp, Option.getD_none, feed.pageCursors_start] at items next
    -- The first read is a later one of a reader that has been given nothing yet.
    have begin' : t.turn response =
        { t with first := t.keys.newestFirst, moved := [], place := .finished }.turn response := by
      simp [Paging.turn, hp]
    have walking : Walking t.keys.newestFirst t.visited t.keys.members [] := by
      rw [feed.newestFirst_eq]
      exact ⟨by simp [h.1], feed.nodup, fun x hx => Or.inr (Or.inl hx)⟩
    rw [begin']
    exact Walking.turn (t := { t with first := _, moved := [], place := .finished }) walking
      (by simp) (List.nil_append _).symm pos items next
  | following cursor =>
    simp only [WalkInv, hp] at h
    obtain ⟨above, below, split, walking⟩ := h
    simp only [Paging.after, hp, Option.getD_some, feed.pageCursors_below split] at items next
    rw [← List.singleton_append, ← List.append_assoc] at split
    exact walking.turn (by simp [hp]) split pos items next
  | finished => exact absurd hp going

/-- A store puts its cursor on top and cuts off the end of the list. -/
theorem WalkInv.store {t : Paging} (h : WalkInv t) (feed : FeedInv c t.keys t.log)
    (bound : 1 ≤ c.feedMaxlen) {event : RelaynaServiceEvent}
    (stored : (c.store t.keys event).2 = true) (ok : Undisturbed c t (.store event)) :
    WalkInv { t with
      keys := (c.store t.keys event).1
      log := t.log ++ [event.cursor]
      moved := t.moved ++
        event.cursor :: t.keys.newestFirst.filter (· ∉ (c.store t.keys event).1.newestFirst) } := by
  obtain ⟨feed', members⟩ := feed.store bound stored
  cases hp : t.place with
  | unread => simpa [WalkInv, hp] using h
  | finished =>
    simp only [WalkInv, hp] at h ⊢
    refine ⟨h.ordered, h.once, fun x hx => ?_⟩
    rcases h.covered x hx with visited | none | moved
    · exact Or.inl visited
    · exact Or.inr (Or.inl none)
    · exact Or.inr (Or.inr (List.mem_append_left _ moved))
  | following cursor =>
    simp only [WalkInv, hp] at h ⊢
    obtain ⟨above, below, split, walking⟩ := h
    simp only [Undisturbed, hp] at ok
    obtain ⟨other, kept⟩ := ok stored
    rw [feed'.newestFirst_eq, members, split] at kept
    have nodup := split ▸ feed.nodup
    obtain ⟨below', split', cut⟩ := touch_split other kept nodup
    have fewer : below'.Sublist below := cut.sublist.trans List.filter_sublist
    refine ⟨_, below', by rw [members, split, split'], ?_, walking.once, fun x hx => ?_⟩
    · exact ((List.Sublist.refl _).append fewer).trans walking.ordered
    · rcases walking.covered x hx with visited | ahead | moved
      · exact Or.inl visited
      · refine Or.inr (or_iff_not_imp_left.mpr fun gone => List.mem_append_right _ ?_)
        refine List.mem_cons.mpr (or_iff_not_imp_left.mpr fun same => ?_)
        rw [feed.newestFirst_eq, feed'.newestFirst_eq, members, split, split']
        simp only [List.nodup_append, List.nodup_cons] at nodup
        grind
      · exact Or.inr (Or.inr (List.mem_append_left _ moved))

/-- The feed and the reader, in every run and in every run that leaves the reader undisturbed. -/
theorem FeedInv.next {t u : Paging} {l : FeedStep} (h : FeedInv c t.keys t.log)
    (bound : 1 ≤ c.feedMaxlen) (hs : (paging c).next t l = some u) : FeedInv c u.keys u.log := by
  cases l with
  | store event =>
    simp only [paging] at hs
    split at hs
    · rename_i stored
      obtain rfl := Option.some.inj hs
      exact (h.store bound stored).1
    · obtain rfl := Option.some.inj hs
      exact h
  | expireEvent eventKey =>
    obtain rfl := Option.some.inj hs
    exact ⟨h.descending, h.counted, h.recent, h.fields, h.written⟩
  | expireFeed =>
    obtain rfl := Option.some.inj hs
    refine ⟨List.Pairwise.nil, ?_, ?_, ?_, ?_⟩ <;>
      simp [FeedKeys.members, SortedSet.empty, recency]
  | read limit =>
    simp only [paging, Option.ite_none_left_eq_some] at hs
    obtain ⟨-, hs⟩ := hs
    split at hs
    · obtain rfl := Option.some.inj hs
      exact h
    · cases hs

theorem WalkInv.next {t u : Paging} {l : FeedStep} (h : WalkInv t)
    (feed : FeedInv c t.keys t.log) (bound : 1 ≤ c.feedMaxlen) (ok : Undisturbed c t l)
    (hs : (paging c).next t l = some u) : WalkInv u := by
  cases l with
  | store event =>
    simp only [paging] at hs
    split at hs
    · rename_i stored
      obtain rfl := Option.some.inj hs
      exact h.store feed bound stored ok
    · obtain rfl := Option.some.inj hs
      exact h
  | expireEvent eventKey =>
    obtain rfl := Option.some.inj hs
    exact h
  | expireFeed =>
    obtain rfl := Option.some.inj hs
    cases hp : t.place with
    | unread => simpa [WalkInv, hp] using h
    | following cursor => simp [Undisturbed, hp] at ok
    | finished =>
      simp only [WalkInv, hp] at h ⊢
      exact ⟨h.ordered, h.once, fun x hx =>
        (h.covered x hx).imp_right fun rest => rest.imp_right fun m => List.mem_append_left _ m⟩
  | read limit => exact h.read feed hs

/-- In every run the feed is the most recently stored cursors with their payloads; and a reader
whose cursor is neither stored again nor evicted walks down the feed of its first read. -/
theorem feed_is_recent_and_walked (c : RedisServiceEventFeedStore) (bound : 1 ≤ c.feedMaxlen)
    (ls : List FeedStep) (t : Paging) (run : (paging c).exec .init ls = some t) :
    FeedSound c t ∧ ((paging c).Along (Undisturbed c) .init ls → Walked t) := by
  refine ⟨?_, fun along => ?_⟩
  · have feed : FeedInv c t.keys t.log :=
      Machine.invariant (I := fun t : Paging => FeedInv c t.keys t.log)
        (fun _ _ _ h hs => h.next bound hs) .initial run
    exact feed.sound bound
  · have start : FeedInv c Paging.init.keys Paging.init.log ∧ WalkInv .init :=
      ⟨.initial, rfl, rfl⟩
    have inv : FeedInv c t.keys t.log ∧ WalkInv t :=
      Machine.invariant_along (I := fun t : Paging => FeedInv c t.keys t.log ∧ WalkInv t)
        (fun _ _ _ h ok hs => ⟨h.1.next bound hs, h.2.next h.1 bound ok hs⟩) start along run
    exact inv.2.walked

/-- An event without optional fields. -/
def plainEvent (cursor : String) (cursor_ne : cursor ≠ "") : RelaynaServiceEvent where
  cursor := cursor
  cursor_ne := cursor_ne
  taskId := "t"
  eventType := "Started"
  sourceKind := .observation
  component := none
  timestamp := none
  eventId := none
  correlationId := none
  parentTaskId := none
  payload := []

/-- The texts of some events, written by cursor and task and read by the text. -/
def tableJson (table : List (RelaynaServiceEvent × String)) (texts : (table.map Prod.snd).Nodup) :
    ServiceEventJson where
  modelDumpJson event := (table.find? fun entry =>
    entry.1.cursor = event.cursor ∧ entry.1.taskId = event.taskId).map Prod.snd
  modelValidateJson serialized := (Keyed.get? Prod.snd serialized table).map Prod.fst
  roundTrip event serialized h := by
    obtain ⟨entry, written, rfl⟩ := Option.map_eq_some_iff.mp h
    have read := Keyed.get?_of_mem texts (List.mem_of_find?_eq_some written)
    have same : entry.1.cursor = event.cursor ∧ entry.1.taskId = event.taskId := by
      simpa using List.find?_some written
    exact ⟨entry.1, by rw [read]; rfl, same.1⟩

def plainEventJson (cursor : String) : String :=
  "\x7b\"cursor\":\"" ++ cursor ++
    "\",\"task_id\":\"t\",\"event_type\":\"Started\",\"source_kind\":\"observation\"," ++
    "\"component\":null,\"timestamp\":null,\"event_id\":null,\"correlation_id\":null," ++
    "\"parent_task_id\":null,\"payload\":\x7b\x7d\x7d"

def plainTable : List (RelaynaServiceEvent × String) :=
  [plainEvent "1" (by decide), plainEvent "2" (by decide), plainEvent "3" (by decide),
    plainEvent "4" (by decide)].map fun event => (event, plainEventJson event.cursor)

def plainStore : RedisServiceEventFeedStore where
  text := { plainText with sha256 := fun s => "#" ++ s }
  digest_ne := by simp
  lower := id
  json := tableJson plainTable (by decide +kernel)
  keyPrefix := "relayna-service-events"
  feedMaxlen := 5000

/-- Three events, a first page of two, a new event, and the rest. -/
def readBesideStore : List FeedStep :=
  [.store (plainEvent "1" (by decide)), .store (plainEvent "2" (by decide)),
    .store (plainEvent "3" (by decide)), .read 2, .store (plainEvent "4" (by decide)), .read 2]

theorem feed_is_recent_and_walked_beside_store :
    ∃ t, (paging plainStore).exec .init readBesideStore = some t ∧
      t.visited = ["3", "2", "1"] ∧ FeedSound plainStore t ∧ Walked t := by
  have given : ((paging plainStore).exec .init readBesideStore).map Paging.visited =
      some ["3", "2", "1"] := by decide +kernel
  have along : (paging plainStore).Along (Undisturbed plainStore) .init readBesideStore := by
    decide +kernel
  obtain ⟨t, run, visited⟩ := Option.map_eq_some_iff.mp given
  obtain ⟨sound, walked⟩ := feed_is_recent_and_walked plainStore (by decide) readBesideStore t run
  exact ⟨t, run, visited, sound, walked along⟩

/-- The reader stands on event "2" when its key expires and it is stored again. -/
def storedAgain : List FeedStep :=
  [.store (plainEvent "1" (by decide)), .store (plainEvent "2" (by decide)),
    .store (plainEvent "3" (by decide)), .read 2, .expireEvent (plainStore.eventKey "2"),
    .store (plainEvent "2" (by decide)), .read 2]

theorem reader_starts_over :
    ¬∀ ls t, (paging plainStore).Along (Unevicted plainStore) .init ls →
      (paging plainStore).exec .init ls = some t → Walked t := by
  intro h
  have given : ((paging plainStore).exec .init storedAgain).map Paging.visited =
      some ["3", "2", "3", "1"] := by decide +kernel
  have along : (paging plainStore).Along (Unevicted plainStore) .init storedAgain := by
    decide +kernel
  obtain ⟨t, run, visited⟩ := Option.map_eq_some_iff.mp given
  have walked := h storedAgain t along run
  have once := walked.once.sublist walked.ordered
  rw [visited] at once
  exact absurd once (by decide)

end Relayna.Observability
