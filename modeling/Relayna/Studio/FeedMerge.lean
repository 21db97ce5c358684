import Mathlib.Algebra.Order.BigOperators.Group.List
import Mathlib.Algebra.Order.Ring.Nat
import Relayna.Studio.FeedCursor
import Relayna.Studio.FeedTurns

/-!
# The pages of all feeds, merged

Feeds that do not change. What is left of a feed at a position is the page of the cursor without
the items that were skipped, and the pages that follow. A turn returns the first item that is left,
or takes an empty page away; so the answers return of every feed a start of it, and each answer
with a cursor has made what is left smaller.
-/
namespace Relayna.Studio.FailedTaskFeeds

open Python Contracts Turns

/-- A feed of a service: its pages, of which all but the first have a cursor. -/
structure Feed where
  first : List Item
  later : List (String × List Item)
  distinct : (later.map Prod.fst).Nodup
  named : ∀ page ∈ later, page.1 ≠ ""

namespace Feed

variable {feed : Feed} {s : Service} {up : Upstream} {p q : Position}

def pages (feed : Feed) : List (Option String × List Item) :=
  (none, feed.first) :: feed.later.map fun page => (some page.1, page.2)

/-- The pages from a cursor on. -/
def start (feed : Feed) (cursor : Option String) : List (Option String × List Item) :=
  feed.pages.dropWhile (·.1 ≠ cursor)

/-- The page at a cursor, and the cursor of the page that follows. -/
def payload (feed : Feed) (cursor : Option String) : Option Payload :=
  match feed.start cursor with
  | [] => none
  | (_, page) :: rest => some ⟨page.map .dict, rest.head?.bind (·.1)⟩

/-- The service answers with the pages of its feed, or fails. -/
def ServedBy (feed : Feed) (up : Upstream) (s : Service) : Prop :=
  ∀ cursor payload q, feed.payload cursor = some payload → up s.serviceId cursor = .payload q →
    q = payload

/-- The service does not fail. -/
def Answers (feed : Feed) (up : Upstream) (s : Service) : Prop :=
  ∀ cursor payload, feed.payload cursor = some payload → up s.serviceId cursor = .payload payload

/-- The items of the feed, as they are returned. -/
def items (feed : Feed) (s : Service) : List Item :=
  (feed.pages.map Prod.snd).flatten.map s.normalizeFailedTaskPayload

/-- What is left of the feed at a position. -/
def left (feed : Feed) (p : Position) : List (List Item) :=
  if p.done then []
  else match feed.start p.cursor with
    | [] => []
    | (_, page) :: rest => page.drop p.skip :: rest.map Prod.snd

def itemsLeft (feed : Feed) (s : Service) (p : Position) : List Item :=
  (feed.left p).flatten.map s.normalizeFailedTaskPayload

def size (feed : Feed) (p : Position) : Nat := (feed.left p).flatten.length + (feed.left p).length

/-- The position is in the feed. -/
def Has (feed : Feed) (p : Position) : Prop :=
  p.done = true ∨ ∃ page rest, feed.start p.cursor = (p.cursor, page) :: rest

theorem nodup_pages (feed : Feed) : (feed.pages.map Prod.fst).Nodup := by
  rw [pages, List.map_cons, List.map_map, List.nodup_cons]
  constructor
  · simp
  · have : (Prod.fst ∘ fun page : String × List Item => (some page.1, page.2)) =
        some ∘ Prod.fst := rfl
    rw [this, ← List.map_map]
    exact feed.distinct.map (Option.some_injective _)

/-- The pages that follow one are the pages from the next cursor on. -/
theorem start_next {c : Option String} {page page' : List Item} {c' : Option String}
    {rest : List (Option String × List Item)}
    (h : feed.start c = (c, page) :: (c', page') :: rest) :
    feed.start c' = (c', page') :: rest ∧ c' ≠ c ∧ ∃ text, c' = some text ∧ text ≠ "" := by
  have suffix : (c, page) :: (c', page') :: rest <:+ feed.pages := by
    rw [← h]
    exact List.dropWhile_suffix _
  obtain ⟨before, split⟩ := suffix
  have nodup := feed.nodup_pages
  rw [← split, List.map_append, List.map_cons, List.map_cons] at nodup
  have apart := List.nodup_append.mp nodup
  have ne : c' ≠ c := fun same => (List.nodup_cons.mp apart.2.1).1 (by simp [same])
  refine ⟨?_, ne, ?_⟩
  · unfold start
    rw [← split, List.append_cons, List.dropWhile_append_of_pos,
      List.dropWhile_cons_of_neg (by simp)]
    intro entry hentry
    simp only [decide_eq_true_eq]
    rcases List.mem_append.mp hentry with early | here
    · exact apart.2.2 _ (List.mem_map_of_mem early) _ (by simp)
    · rw [List.mem_singleton.mp here]
      exact Ne.symm ne
  · have later : (c', page') ∈ feed.pages.tail := by
      rw [← split]
      cases before with
      | nil => simp
      | cons _ _ => simp
    obtain ⟨named, hnamed, same⟩ := List.mem_map.mp later
    exact ⟨named.1, (Prod.mk.inj same).1.symm, feed.named named hnamed⟩

theorem left_of_done (ended : p.done = true) : feed.left p = [] := by
  rw [left, if_pos ended]

theorem left_eq {page : List Item} {rest : List (Option String × List Item)}
    (open_ : p.done = false) (h : feed.start p.cursor = (p.cursor, page) :: rest) :
    feed.left p = page.drop p.skip :: rest.map Prod.snd := by
  simp [left, open_, h]

theorem payload_eq {page : List Item} {rest : List (Option String × List Item)}
    (h : feed.start p.cursor = (p.cursor, page) :: rest) :
    feed.payload p.cursor = some ⟨page.map .dict, rest.head?.bind (·.1)⟩ := by
  rw [payload, h]

/-- Behind the last item of a page the pages that follow are left. -/
theorem advance_spec {page : List Item} {rest : List (Option String × List Item)} {k : Nat}
    (h : feed.start p.cursor = (p.cursor, page) :: rest) :
    feed.Has ({ p with skip := k }.advance (rest.head?.bind (·.1))) ∧
    feed.left ({ p with skip := k }.advance (rest.head?.bind (·.1))) = rest.map Prod.snd := by
  cases rest with
  | nil => exact ⟨Or.inl rfl, left_of_done rfl⟩
  | cons entry rest =>
    obtain ⟨c', page'⟩ := entry
    obtain ⟨next, ne, text, rfl, named⟩ := start_next h
    have moved : { p with skip := k }.advance (some text) = { cursor := some text } := by
      simp [Position.advance, Position.following, named, ne]
    rw [List.head?_cons, Option.bind_some, moved]
    exact ⟨Or.inr ⟨page', rest, next⟩, by rw [left_eq rfl next, List.drop_zero, List.map_cons]⟩

theorem itemsOf_page {page : List Item} {next : Option String} :
    s.itemsOf ⟨page.map .dict, next⟩ = page.map s.normalizeFailedTaskPayload := by
  unfold Service.itemsOf
  dsimp only
  rw [List.filterMap_map]
  exact congrFun List.filterMap_eq_map page

/-- A turn takes the first item that is left, or an empty page. -/
theorem turn_left {ys : List Item} (has : feed.Has p) (served : feed.ServedBy up s)
    (step : turn up s p = some (ys, q)) :
    feed.Has q ∧
    (ys = [] ∧ feed.left p = [] :: feed.left q ∨
      ∃ x rest, ys = [s.normalizeFailedTaskPayload x] ∧
        (feed.left p = [x] :: rest ∧ feed.left q = rest ∨
          ∃ y page, feed.left p = (x :: y :: page) :: rest ∧
            feed.left q = (y :: page) :: rest)) := by
  have open_ : p.done = false := by
    by_contra ended
    rw [turn_of_done (by simpa using ended)] at step
    cases step
  obtain ⟨page, rest, here⟩ := has.resolve_left (by simp [open_])
  rw [left_eq open_ here]
  unfold turn at step
  rw [if_neg (by simp [open_])] at step
  cases reply : up s.serviceId p.cursor with
  | error e =>
    rw [reply] at step
    cases step
  | timeout =>
    rw [reply] at step
    cases step
  | payload q' =>
    obtain rfl := served _ _ _ (payload_eq here) reply
    rw [reply] at step
    simp only [itemsOf_page, ← List.map_drop] at step
    cases hd : page.drop p.skip with
    | nil =>
      rw [hd] at step
      simp only [List.map_nil, Option.some.injEq, Prod.mk.injEq] at step
      obtain ⟨rfl, rfl⟩ := step
      obtain ⟨has', left_⟩ := advance_spec (k := p.skip) here
      exact ⟨has', Or.inl ⟨rfl, by rw [left_]⟩⟩
    | cons x page' =>
      rw [hd] at step
      cases page' with
      | nil =>
        simp only [List.map_cons, List.map_nil, Option.some.injEq, Prod.mk.injEq] at step
        obtain ⟨rfl, rfl⟩ := step
        obtain ⟨has', left_⟩ := advance_spec (k := p.skip + 1) here
        exact ⟨has', Or.inr ⟨x, _, rfl, Or.inl ⟨rfl, left_⟩⟩⟩
      | cons y page' =>
        simp only [List.map_cons, Option.some.injEq, Prod.mk.injEq] at step
        obtain ⟨rfl, rfl⟩ := step
        refine ⟨Or.inr ⟨page, rest, here⟩, Or.inr ⟨x, _, rfl, Or.inr ⟨y, page', rfl, ?_⟩⟩⟩
        have more : feed.left { p with skip := p.skip + 1 } =
            page.drop (p.skip + 1) :: rest.map Prod.snd := left_eq open_ here
        rw [more, ← List.tail_drop, hd, List.tail_cons]

theorem turn_spec {ys : List Item} (has : feed.Has p) (served : feed.ServedBy up s)
    (step : turn up s p = some (ys, q)) :
    feed.Has q ∧ feed.itemsLeft s p = ys ++ feed.itemsLeft s q ∧
      feed.size q < feed.size p ∧ feed.size q + ys.length ≤ feed.size p := by
  obtain ⟨has', ⟨rfl, taken⟩ | ⟨x, rest, rfl, ⟨all, left_⟩ | ⟨y, page, all, left_⟩⟩⟩ :=
    turn_left has served step
  · have smaller : feed.size p = feed.size q + 1 := by simp [size, taken, Nat.add_assoc]
    exact ⟨has', by simp [itemsLeft, taken], by omega, by simp [smaller]⟩
  · have smaller : feed.size p = feed.size q + 2 := by
      simp only [size, all, left_, List.flatten_cons, List.length_append, List.length_cons,
        List.length_nil]
      omega
    exact ⟨has', by simp [itemsLeft, all, left_], by omega, by simp [smaller]⟩
  · have smaller : feed.size p = feed.size q + 1 := by
      simp only [size, all, left_, List.flatten_cons, List.length_append, List.length_cons]
      omega
    exact ⟨has', by simp [itemsLeft, all, left_], by omega, by simp [smaller]⟩

/-- What turns return of a feed is a start of what was left. -/
theorem gives_spec {xs : List Item} (h : Gives (turn up s) p xs q) (has : feed.Has p)
    (served : feed.ServedBy up s) :
    feed.Has q ∧ feed.itemsLeft s p = xs ++ feed.itemsLeft s q :=
  h.content has fun _ _ _ has step =>
    ⟨(turn_spec has served step).1, (turn_spec has served step).2.1⟩

theorem gives_size {xs : List Item} (h : Gives (turn up s) p xs q) (has : feed.Has p)
    (served : feed.ServedBy up s) : feed.size q + xs.length ≤ feed.size p := by
  have both := h.invariant (P := fun xs q => feed.Has q ∧ feed.size q + xs.length ≤ feed.size p)
    ⟨has, Nat.le_refl _⟩ fun xs t ys u ⟨has, le⟩ step => by
      obtain ⟨has', -, -, less⟩ := turn_spec has served step
      refine ⟨has', ?_⟩
      rw [List.length_append]
      omega
  exact both.2

theorem has_start (feed : Feed) : feed.Has {} :=
  Or.inr ⟨feed.first, _, List.dropWhile_cons_of_neg (by simp)⟩

theorem itemsLeft_start (feed : Feed) (s : Service) : feed.itemsLeft s {} = feed.items s := by
  have here : feed.start ({} : Position).cursor = (none, feed.first) :: _ :=
    List.dropWhile_cons_of_neg (by simp)
  rw [itemsLeft, left_eq rfl here, List.drop_zero, items, pages, List.map_cons]

end Feed

/-! ## Following the cursors -/

namespace Federation

/-- The items of the answers, from the call with number `n` on; `none` if an answer is an error or
the cursors have not ended after that many calls. -/
def follow (f : Federation) (ups : Nat → Upstream) (limit : Nat) :
    Nat → Nat → Option String → Option (List Item)
  | 0, _, _ => none
  | calls + 1, n, cursor =>
    match f.listFailedTasks (ups n) cursor limit with
    | .ok answer =>
      match answer.nextCursor with
      | none => some answer.items
      | some next => (f.follow ups limit calls (n + 1) (some next)).map (answer.items ++ ·)
    | .error _ => none

variable {f : Federation} {up : Upstream} {limit : Nat} {positions : Fields Position}
  {feeds : String → Feed} {s : Service}

/-- The positions are in the feeds. -/
def AllHave (f : Federation) (feeds : String → Feed) (positions : Fields Position) : Prop :=
  ∀ s ∈ f.enabled, (feeds s.serviceId).Has (positionAt positions s.serviceId)

/-- What a call leaves of a feed. -/
theorem run_left (unique : (f.services.map Service.serviceId).Nodup)
    (served : ∀ s ∈ f.enabled, (feeds s.serviceId).ServedBy up s)
    (have_ : f.AllHave feeds positions) (hs : s ∈ f.enabled) :
    (feeds s.serviceId).Has ((f.run up limit positions 0).position s.serviceId) ∧
    (feeds s.serviceId).itemsLeft s (positionAt positions s.serviceId) =
      returned s.serviceId (f.run up limit positions 0).page ++
        (feeds s.serviceId).itemsLeft s ((f.run up limit positions 0).position s.serviceId) :=
  Feed.gives_spec ((run_reading unique).standing s hs).given (have_ s hs) (served s hs)

/-- When no more follows, nothing is left of the feeds of the services that answer. -/
theorem run_ends (unique : (f.services.map Service.serviceId).Nodup)
    (nodup : (positions.map Prod.fst).Nodup)
    (served : ∀ s ∈ f.enabled, (feeds s.serviceId).ServedBy up s)
    (have_ : f.AllHave feeds positions)
    (ends : (f.run up limit positions 0).hasMore f.enabled = false)
    (hs : s ∈ f.enabled) (answers : (feeds s.serviceId).Answers up s) :
    (feeds s.serviceId).itemsLeft s ((f.run up limit positions 0).position s.serviceId) = [] := by
  have ended : ((f.run up limit positions 0).position s.serviceId).done = true := by
    by_contra open_
    have unavailable : s.serviceId ∈ (f.run up limit positions 0).unavailable := by
      by_contra available
      have more := (hasMore_run nodup).mpr ⟨s, hs, by simpa using open_, available⟩
      rw [ends] at more
      cases more
    obtain ⟨s', hs', same, xs, p, given, open', refused⟩ := run_blamed unique _ unavailable
    obtain rfl := List.inj_on_of_nodup_map (unique_enabled unique) hs' hs same
    obtain ⟨page, rest, here⟩ :=
      (Feed.gives_spec given (have_ s' hs') (served s' hs')).1.resolve_left (by simp [open'])
    exact refused _ (answers p.cursor _ (Feed.payload_eq here))
  rw [Feed.itemsLeft, Feed.left_of_done ended]
  rfl

def sizes (f : Federation) (feeds : String → Feed) (position : String → Position) : Nat :=
  (f.enabled.map fun s => (feeds s.serviceId).size (position s.serviceId)).sum

/-- When more follows, less is left. -/
theorem run_smaller (unique : (f.services.map Service.serviceId).Nodup)
    (nodup : (positions.map Prod.fst).Nodup) (asked : 1 ≤ limit)
    (served : ∀ s ∈ f.enabled, (feeds s.serviceId).ServedBy up s)
    (have_ : f.AllHave feeds positions)
    (more : (f.run up limit positions 0).hasMore f.enabled = true) :
    f.sizes feeds (f.run up limit positions 0).position <
      f.sizes feeds (positionAt positions) := by
  have reading : (f.run up limit positions 0).Reading up f.enabled (positionAt positions) :=
    run_reading unique
  have each : ∀ s ∈ f.enabled,
      (feeds s.serviceId).size ((f.run up limit positions 0).position s.serviceId) +
        (returned s.serviceId (f.run up limit positions 0).page).length ≤
      (feeds s.serviceId).size (positionAt positions s.serviceId) := fun s hs =>
    Feed.gives_size (reading.standing s hs).given (have_ s hs) (served s hs)
  refine List.sum_lt_sum _ _ (fun s hs => (Nat.le_add_right _ _).trans (each s hs)) ?_
  rcases run_progress unique nodup asked more with some_ | ⟨s, hs, passed⟩
  · obtain ⟨item, hitem⟩ := List.exists_mem_of_ne_nil _ some_
    obtain ⟨s, hs, own⟩ := reading.own item hitem
    have shown : 0 < (returned s.serviceId (f.run up limit positions 0).page).length :=
      List.length_pos_of_mem (List.mem_filter.mpr ⟨hitem, by simpa using own⟩)
    have := each s hs
    exact ⟨s, hs, by omega⟩
  · obtain ⟨has, -, less, -⟩ := Feed.turn_spec (have_ s hs) (served s hs) passed
    have given : Gives (turn up s) _ _ ((f.run up limit positions 0).position s.serviceId) :=
      run_given unique hs
    have := Feed.gives_size given has (served s hs)
    exact ⟨s, hs, by omega⟩

end Federation

end Relayna.Studio.FailedTaskFeeds
