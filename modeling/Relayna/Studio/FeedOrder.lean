import Mathlib.Data.List.Flatten
import Relayna.Studio.FeedMerge

/-!
# The order of the merged pages

If every page but the last of a feed has an item, then a page is loaded of every feed of which
something is left, as long as items are asked for. The item with the greatest key that is returned
next is then the greatest of all that is left.
-/
namespace Relayna.Studio.FailedTaskFeeds

open Python Contracts Turns

variable {f : Federation} {text : Text} {up : Upstream} {limit : Nat} {s : Service}
  {services : List Service} {c : Call} {feeds : String → Feed} {feed : Feed} {p q : Position}
  {start : String → Position}

namespace Feed

/-- No page before the last is empty. -/
def NoGaps (feed : Feed) : Prop := ∀ page ∈ feed.pages.dropLast, page.2 ≠ []

/-- The items are in descending order of `failed_at`. -/
def Descending (feed : Feed) (text : Text) : Prop :=
  (feed.pages.map Prod.snd).flatten.Pairwise fun a b =>
    itemText text b "failed_at" ≤ itemText text a "failed_at"

/-- No page that is left is empty, unless it is the last. -/
def Full (feed : Feed) (p : Position) : Prop := ∀ page ∈ (feed.left p).dropLast, page ≠ []

theorem full_start (h : feed.NoGaps) : feed.Full {} := by
  have here : feed.start ({} : Position).cursor = (none, feed.first) :: _ :=
    List.dropWhile_cons_of_neg (by simp)
  have left_ : feed.left {} = feed.pages.map Prod.snd := by
    rw [left_eq rfl here, List.drop_zero, pages, List.map_cons]
  intro page hpage
  rw [left_, ← List.map_dropLast] at hpage
  obtain ⟨entry, hentry, rfl⟩ := List.mem_map.mp hpage
  exact h entry hentry

theorem itemText_normalize {item : Item} : itemText text (s.normalizeFailedTaskPayload item)
    "failed_at" = itemText text item "failed_at" := by
  unfold itemText
  rw [lookup_normalize_ne (by decide) (by decide)]

theorem descending_start (h : feed.Descending text) :
    (feed.itemsLeft s {}).Pairwise fun a b =>
      itemText text b "failed_at" ≤ itemText text a "failed_at" := by
  rw [itemsLeft_start, items, List.pairwise_map]
  simp only [itemText_normalize]
  exact h

theorem Full.turn {ys : List Item} (full : feed.Full p) (has : feed.Has p)
    (served : feed.ServedBy up s) (step : turn up s p = some (ys, q)) : feed.Full q := by
  obtain ⟨-, ⟨-, taken⟩ | ⟨x, rest, -, ⟨all, left_⟩ | ⟨y, page, all, left_⟩⟩⟩ :=
    turn_left has served step
  · intro page hpage
    refine full page ?_
    rw [taken]
    cases h : feed.left q with
    | nil => simp [h] at hpage
    | cons _ _ =>
      rw [List.dropLast_cons_of_ne_nil (by simp)]
      exact List.mem_cons_of_mem _ (h ▸ hpage)
  · intro page hpage
    refine full page ?_
    rw [left_] at hpage
    rw [all]
    cases rest with
    | nil => cases hpage
    | cons _ _ =>
      rw [List.dropLast_cons_of_ne_nil (by simp)]
      exact List.mem_cons_of_mem _ hpage
  · intro page' hpage
    rw [left_] at hpage
    rw [Full, all] at full
    cases rest with
    | nil => cases hpage
    | cons _ _ =>
      rw [List.dropLast_cons_of_ne_nil (by simp)] at full hpage
      rcases List.mem_cons.mp hpage with rfl | later
      · simp
      · exact full page' (List.mem_cons_of_mem _ later)

theorem Full.gives {xs : List Item} (full : feed.Full p) (has : feed.Has p)
    (served : feed.ServedBy up s) (h : Gives (FailedTaskFeeds.turn up s) p xs q) :
    feed.Full q := by
  have both := h.invariant (P := fun _ q => feed.Has q ∧ feed.Full q) ⟨has, full⟩
    fun _ _ _ _ ⟨has, full⟩ step => ⟨(turn_spec has served step).1, full.turn has served step⟩
  exact both.2

/-- A turn that returns nothing has passed the last page. -/
theorem Full.passed (full : feed.Full p) (has : feed.Has p) (served : feed.ServedBy up s)
    (step : FailedTaskFeeds.turn up s p = some ([], q)) : feed.itemsLeft s q = [] := by
  obtain ⟨-, ⟨-, taken⟩ | ⟨x, rest, none_, -⟩⟩ := turn_left has served step
  · rw [itemsLeft]
    cases h : feed.left q with
    | nil => rfl
    | cons page rest =>
      refine absurd rfl (full [] ?_)
      rw [taken, h]
      simp
  · cases none_

theorem Answers.servedBy (h : feed.Answers up s) : feed.ServedBy up s := by
  intro cursor payload q here reply
  rw [h cursor payload here] at reply
  cases reply
  rfl

theorem serviceOf_itemsLeft {y : Item} (hy : y ∈ feed.itemsLeft s p) :
    serviceOf y = s.serviceId := by
  obtain ⟨x, -, rfl⟩ := List.mem_map.mp hy
  exact serviceOf_normalize x

end Feed

/-- The order of the answers: by `failed_at`, and then by the service. -/
def orderKey (text : Text) (item : Item) : String ×ₗ String :=
  toLex (itemText text item "failed_at", serviceOf item)

theorem orderKey_le {a b : Item} (service : serviceOf b = serviceOf a)
    (time : itemText text b "failed_at" ≤ itemText text a "failed_at") :
    orderKey text b ≤ orderKey text a := by
  rw [orderKey, orderKey, Prod.Lex.toLex_le_toLex]
  rcases time.lt_or_eq with earlier | same
  · exact Or.inl earlier
  · exact Or.inr ⟨same, service.le⟩

/-- Services that answer with the pages of feeds without gaps, in descending order. -/
structure Steady (text : Text) (up : Upstream) (services : List Service) (feeds : String → Feed)
    (start : String → Position) : Prop where
  answers : ∀ s ∈ services, (feeds s.serviceId).Answers up s
  has : ∀ s ∈ services, (feeds s.serviceId).Has (start s.serviceId)
  full : ∀ s ∈ services, (feeds s.serviceId).Full (start s.serviceId)
  descending : ∀ s ∈ services, ((feeds s.serviceId).itemsLeft s (start s.serviceId)).Pairwise
    fun a b => itemText text b "failed_at" ≤ itemText text a "failed_at"

namespace Call

/-- As long as items are asked for, nothing is left where no page is loaded. -/
def Ready (limit : Nat) (services : List Service) (feeds : String → Feed) (c : Call) : Prop :=
  c.page.length < limit → ∀ s ∈ services, c.pageOf s.serviceId = [] →
    (feeds s.serviceId).itemsLeft s (c.position s.serviceId) = []

/-- What was returned is in order, and above all that is left. -/
structure Ordered (text : Text) (services : List Service) (feeds : String → Feed)
    (c : Call) : Prop where
  sorted : c.page.Pairwise fun a b => orderKey text b ≤ orderKey text a
  above : ∀ x ∈ c.page, ∀ s ∈ services,
    ∀ y ∈ (feeds s.serviceId).itemsLeft s (c.position s.serviceId),
      orderKey text y ≤ orderKey text x

theorem Fetched.ready (h : Fetched up s p c) (answers : feed.Answers up s) (has : feed.Has p)
    (full : feed.Full p) (empty : c.pageOf s.serviceId = []) :
    feed.itemsLeft s (c.position s.serviceId) = [] := by
  cases h with
  | ended ended stays =>
    rw [stays, Feed.itemsLeft, Feed.left_of_done ended]
    rfl
  | failed refused stays =>
    rcases has with ended | ⟨page, rest, here⟩
    · rw [stays, Feed.itemsLeft, Feed.left_of_done ended]
      rfl
    · exact absurd (answers _ _ (Feed.payload_eq here)) (refused _)
  | loaded _ some_ => exact absurd empty some_
  | passed passed => exact full.passed has answers.servedBy passed

section Steady

variable (steady : Steady text up services feeds start)

include steady

/-- Where the turns of a service have led to. -/
theorem Reading.stands (h : c.Reading up services start) (hs : s ∈ services) :
    (feeds s.serviceId).Has (c.position s.serviceId) ∧
    (feeds s.serviceId).Full (c.position s.serviceId) ∧
    (feeds s.serviceId).itemsLeft s (start s.serviceId) = returned s.serviceId c.page ++
      (feeds s.serviceId).itemsLeft s (c.position s.serviceId) := by
  have given := (h.standing s hs).given
  have served := (steady.answers s hs).servedBy
  obtain ⟨has, parts⟩ := Feed.gives_spec given (steady.has s hs) served
  exact ⟨has, (steady.full s hs).gives (steady.has s hs) served given, parts⟩

/-- What is left of a service before a round is the item, if it is its own, and what is left
after it. -/
theorem Reading.left_round {c' : Call} {item : Item} (h : c.Reading up services start)
    (h' : c'.Reading up services start) (page : c'.page = c.page ++ [item]) (hs : s ∈ services) :
    (feeds s.serviceId).itemsLeft s (c.position s.serviceId) =
      returned s.serviceId [item] ++
        (feeds s.serviceId).itemsLeft s (c'.position s.serviceId) := by
  have before := (h.stands steady hs).2.2
  have after := (h'.stands steady hs).2.2
  rw [page, returned_append, List.append_assoc] at after
  exact List.append_cancel_left (before.symm.trans after)

/-- The first item of a loaded page is the first that is left. -/
theorem Reading.left_loaded {item : Item} {tail : List Item} (h : c.Reading up services start)
    (hs : s ∈ services) (page : c.pageOf s.serviceId = item :: tail) :
    ∃ rest, (feeds s.serviceId).itemsLeft s (c.position s.serviceId) = item :: rest := by
  have loaded := (h.standing s hs).loaded (by simp [page])
  have taken := Feed.turn_spec (h.stands steady hs).1 (steady.answers s hs).servedBy
    (emit_turn h.plain loaded page)
  exact ⟨_, taken.2.1⟩

/-- Of what is left of a service the first item is the latest. -/
theorem Reading.first_latest {item : Item} {rest : List Item} (h : c.Reading up services start)
    (hs : s ∈ services)
    (left : (feeds s.serviceId).itemsLeft s (c.position s.serviceId) = item :: rest) :
    ∀ y ∈ item :: rest, orderKey text y ≤ orderKey text item := by
  have descending := steady.descending s hs
  rw [(h.stands steady hs).2.2, List.pairwise_append, left, List.pairwise_cons] at descending
  have own : ∀ y ∈ item :: rest, serviceOf y = s.serviceId := fun y hy =>
    Feed.serviceOf_itemsLeft (left ▸ hy)
  intro y hy
  rcases List.mem_cons.mp hy with rfl | later
  · exact le_refl _
  · exact orderKey_le ((own y hy).trans (own item List.mem_cons_self).symm)
      (descending.2.1.1 y later)

/-- The candidate that is chosen is above all that is left. -/
theorem Reading.chosen_above {candidate : String × Item} (h : c.Reading up services start)
    (ready : c.Ready limit services feeds) (room : c.page.length < limit)
    (chosen : c.candidates.argmax (sortKey text) = some candidate)
    (own : serviceOf candidate.2 = candidate.1) (hs : s ∈ services) :
    ∀ y ∈ (feeds s.serviceId).itemsLeft s (c.position s.serviceId),
      orderKey text y ≤ orderKey text candidate.2 := by
  intro y hy
  have loaded : c.pageOf s.serviceId ≠ [] := fun empty =>
    absurd (ready room s hs empty) (List.ne_nil_of_mem hy)
  obtain ⟨item, tail, page⟩ := List.exists_cons_of_ne_nil loaded
  obtain ⟨rest, left⟩ := h.left_loaded steady hs page
  rw [left] at hy
  refine (h.first_latest steady hs left y hy).trans ?_
  have le := List.le_of_mem_argmax (Kept.mem_candidates page) chosen
  have own' : serviceOf item = s.serviceId :=
    serviceOf_loaded ((h.standing s hs).loaded loaded) page
  rw [sortKey, sortKey, Prod.Lex.toLex_le_toLex] at le
  rw [orderKey, orderKey, own, own', Prod.Lex.toLex_le_toLex]
  rcases le with earlier | ⟨same, le⟩
  · exact Or.inl earlier
  · refine Or.inr ⟨same, ?_⟩
    rcases Prod.Lex.toLex_le_toLex.mp le with before | ⟨here, -⟩
    · exact before.le
    · exact here.le

theorem Reading.ordered_round {c' : Call} {item : Item} (h : c.Reading up services start)
    (h' : c'.Reading up services start) (ordered : c.Ordered text services feeds)
    (page : c'.page = c.page ++ [item]) (hs : s ∈ services) (own : serviceOf item = s.serviceId)
    (greatest : ∀ s ∈ services, ∀ y ∈ (feeds s.serviceId).itemsLeft s (c.position s.serviceId),
      orderKey text y ≤ orderKey text item) : c'.Ordered text services feeds := by
  have fewer : ∀ s ∈ services, ∀ y ∈ (feeds s.serviceId).itemsLeft s (c'.position s.serviceId),
      y ∈ (feeds s.serviceId).itemsLeft s (c.position s.serviceId) := by
    intro s hs y hy
    rw [h.left_round steady h' page hs]
    exact List.mem_append_right _ hy
  have here : item ∈ (feeds s.serviceId).itemsLeft s (c.position s.serviceId) := by
    rw [h.left_round steady h' page hs]
    exact List.mem_append_left _
      (List.mem_filter.mpr ⟨List.mem_singleton_self _, by simpa using own⟩)
  constructor
  · rw [page, List.pairwise_append]
    refine ⟨ordered.sorted, List.pairwise_singleton _ _, fun x hx y hy => ?_⟩
    rw [List.mem_singleton.mp hy]
    exact ordered.above x hx s hs item here
  · intro x hx s' hs' y hy
    rw [page] at hx
    rcases List.mem_append.mp hx with old | new
    · exact ordered.above x old s' hs' y (fewer s' hs' y hy)
    · rw [List.mem_singleton.mp new]
      exact greatest s' hs' y (fewer s' hs' y hy)

/-- After a round a page is loaded again, unless nothing is left or no more is asked for. -/
theorem Reading.ready_round {item : Item} {tail : List Item} (h : c.Reading up services start)
    (unique : (services.map Service.serviceId).Nodup) (ready : c.Ready limit services feeds)
    (room : c.page.length < limit) (hs : s ∈ services)
    (page : c.pageOf s.serviceId = item :: tail) :
    ((c.emit s.serviceId item).turnPage up limit services s.serviceId).Ready
      limit services feeds := by
  have found : services.find? (·.serviceId = s.serviceId) = some s :=
    Keyed.get?_of_mem unique hs
  have own := serviceOf_loaded ((h.standing s hs).loaded (by simp [page])) page
  have emitted := h.emit unique hs page
  have left : (c.emit s.serviceId item).pageOf s.serviceId = tail := by
    rw [pageOf_emit h.plain, page, List.tail_cons]
  intro more s' hs' empty
  rw [turnPage_page found] at more
  by_cases same : s' = s
  · subst same
    by_cases last : tail = []
    · rw [if_pos last] at emitted
      rw [turnPage_of_empty (left.trans last) found] at empty ⊢
      split at empty
      · rename_i open_
        rw [if_pos open_]
        obtain ⟨has, full, -⟩ := emitted.stands steady hs
        have fetched : Fetched up s' _ (((c.emit s'.serviceId item).turned
            s'.serviceId).fetchPage up s') := fetchPage_spec (left.trans last)
        exact fetched.ready (steady.answers s' hs) has full empty
      · rename_i stop
        rw [if_neg stop]
        have ended : (((c.emit s'.serviceId item).turned s'.serviceId).position
            s'.serviceId).done = true := by
          by_contra open_
          exact stop ⟨by simpa using open_, more⟩
        rw [Feed.itemsLeft, Feed.left_of_done ended]
        rfl
    · rw [turnPage_of_some (left.trans_ne last)] at empty
      exact absurd (left.symm.trans empty) last
  · have ne : s'.serviceId ≠ s.serviceId := fun ids =>
      same (List.inj_on_of_nodup_map unique hs' hs ids)
    have kept : Same s'.serviceId c
        ((c.emit s.serviceId item).turnPage up limit services s.serviceId) :=
      (emit_same h.plain ne own).trans (turnPage_same ne found)
    rw [kept.pageOf] at empty
    rw [kept.position]
    exact ready room s' hs' empty

theorem Reading.ordered_merge (h : c.Reading up services start)
    (unique : (services.map Service.serviceId).Nodup) (ready : c.Ready limit services feeds)
    (ordered : c.Ordered text services feeds) (rounds : Nat) :
    (c.merge text up limit services rounds).Ordered text services feeds := by
  induction rounds generalizing c with
  | zero => exact ordered
  | succ rounds ih =>
    unfold Call.merge
    split
    · rename_i room
      cases step : c.round text up limit services with
      | none => exact ordered
      | some c' =>
        have h' := h.round unique step
        obtain ⟨candidate, chosen, rfl⟩ := Option.map_eq_some_iff.mp step
        obtain ⟨s, hs, same, tail, page⟩ := h.of_mem_candidates (List.argmax_mem chosen)
        have found : services.find? (·.serviceId = s.serviceId) = some s :=
          Keyed.get?_of_mem unique hs
        have own := serviceOf_loaded ((h.standing s hs).loaded (by simp [page])) page
        have returned_ : ((c.emit s.serviceId candidate.2).turnPage up limit services
            s.serviceId).page = c.page ++ [candidate.2] := by
          rw [turnPage_page found, emit_eq h.plain]
        rw [← same] at h' ⊢
        exact ih h' (h.ready_round steady unique ready room hs page)
          (h.ordered_round steady h' ordered returned_ hs own fun s' hs' =>
            h.chosen_above steady ready room chosen (own.trans same) hs')
    · exact ordered

end Steady

end Call

/-! ## All answers -/

namespace Federation

variable {positions : Fields Position}

/-- The items of a call are in order, and above all that is left after it. -/
theorem run_ordered (unique : (f.services.map Service.serviceId).Nodup)
    (steady : Steady f.text up f.enabled feeds (positionAt positions)) :
    (f.run up limit positions 0).Ordered f.text f.enabled feeds := by
  obtain ⟨reading, -, each, page⟩ := f.fetched_spec up positions unique
  rw [run_eq]
  refine reading.ordered_merge steady (unique_enabled unique) (fun _ s hs empty => ?_) ?_ limit
  · exact (each s hs).ready (steady.answers s hs) (steady.has s hs) (steady.full s hs) empty
  · exact ⟨by rw [page]; exact List.Pairwise.nil, by rw [page]; exact List.forall_mem_nil _⟩

/-- What the answers return from some positions on. -/
structure Follows (f : Federation) (feeds : String → Feed) (ups : Nat → Upstream)
    (positions : Fields Position) (items : List Item) : Prop where
  own : ∀ item ∈ items, ∃ s ∈ f.enabled, serviceOf item = s.serviceId
  part : ∀ s ∈ f.enabled, ∃ rest,
    (feeds s.serviceId).itemsLeft s (positionAt positions s.serviceId) =
      returned s.serviceId items ++ rest ∧
    ((∀ n, (feeds s.serviceId).Answers (ups n) s) → rest = [])
  sorted : (∀ n, Steady f.text (ups n) f.enabled feeds (positionAt positions)) →
    items.Pairwise fun a b => orderKey f.text b ≤ orderKey f.text a

theorem Follows.last {ups : Nat → Upstream} {n : Nat}
    (unique : (f.services.map Service.serviceId).Nodup) (nodup : (positions.map Prod.fst).Nodup)
    (served : ∀ n, ∀ s ∈ f.enabled, (feeds s.serviceId).ServedBy (ups n) s)
    (have_ : f.AllHave feeds positions)
    (ends : (f.run (ups n) limit positions 0).hasMore f.enabled = false) :
    Follows f feeds ups positions (f.run (ups n) limit positions 0).page where
  own := (run_reading unique).own
  part _ hs := ⟨_, (run_left unique (served n) have_ hs).2, fun answers =>
    run_ends unique nodup (served n) have_ ends hs (answers n)⟩
  sorted steady := (run_ordered unique (steady n)).sorted

theorem Steady.run {ups : Nat → Upstream} {n : Nat}
    (unique : (f.services.map Service.serviceId).Nodup)
    (steady : ∀ n, Steady f.text (ups n) f.enabled feeds (positionAt positions)) (m : Nat) :
    Steady f.text (ups m) f.enabled feeds (f.run (ups n) limit positions 0).position := by
  have reading : (f.run (ups n) limit positions 0).Reading (ups n) f.enabled
      (positionAt positions) := run_reading unique
  refine ⟨(steady m).answers, fun s hs => (reading.stands (steady n) hs).1,
    fun s hs => (reading.stands (steady n) hs).2.1, fun s hs => ?_⟩
  have descending := (steady n).descending s hs
  rw [(reading.stands (steady n) hs).2.2, List.pairwise_append] at descending
  exact descending.2.1

theorem Follows.next {ups : Nat → Upstream} {n : Nat} {items : List Item}
    (unique : (f.services.map Service.serviceId).Nodup)
    (served : ∀ n, ∀ s ∈ f.enabled, (feeds s.serviceId).ServedBy (ups n) s)
    (have_ : f.AllHave feeds positions)
    (rest : Follows f feeds ups (f.run (ups n) limit positions 0).positions items) :
    Follows f feeds ups positions ((f.run (ups n) limit positions 0).page ++ items) where
  own item hitem := by
    rcases List.mem_append.mp hitem with here | later
    · exact (run_reading unique).own item here
    · exact rest.own item later
  part s hs := by
    obtain ⟨unread, parts, all⟩ := rest.part s hs
    refine ⟨unread, ?_, all⟩
    rw [(run_left unique (served n) have_ hs).2, returned_append, List.append_assoc]
    exact congrArg _ parts
  sorted steady := by
    have ordered : (f.run (ups n) limit positions 0).Ordered f.text f.enabled feeds :=
      run_ordered unique (steady n)
    refine List.pairwise_append.mpr ⟨ordered.sorted,
      rest.sorted fun m => Steady.run unique steady m, fun x hx y hy => ?_⟩
    obtain ⟨s, hs, own⟩ := rest.own y hy
    obtain ⟨unread, parts, -⟩ := rest.part s hs
    refine ordered.above x hx s hs y ?_
    have mine : y ∈ returned s.serviceId items :=
      List.mem_filter.mpr ⟨hy, by simpa using own⟩
    exact parts ▸ List.mem_append_left _ mine

/-- The cursors come to an end. -/
theorem follow_ends {ups : Nat → Upstream} (faithful : f.codec.Faithful)
    (unique : (f.services.map Service.serviceId).Nodup) (asked : 1 ≤ limit)
    (served : ∀ n, ∀ s ∈ f.enabled, (feeds s.serviceId).ServedBy (ups n) s) (size n : Nat)
    {cursor : Option String} {positions : Fields Position}
    (decoded : f.codec.decodeCursor cursor = some (positions, 0))
    (nodup : (positions.map Prod.fst).Nodup) (have_ : f.AllHave feeds positions)
    (small : f.sizes feeds (positionAt positions) ≤ size) :
    ∃ calls items, f.follow ups limit calls n cursor = some items ∧
      Follows f feeds ups positions items := by
  induction size using Nat.strong_induction_on generalizing n cursor positions with
  | _ size ih =>
    have call : f.listFailedTasks (ups n) cursor limit =
        .ok (f.answer (f.run (ups n) limit positions 0)) := by
      rw [listFailedTasks, decoded]
    cases more : (f.run (ups n) limit positions 0).hasMore f.enabled with
    | false =>
      refine ⟨1, _, ?_, Follows.last unique nodup served have_ more⟩
      simp only [follow, call, answer, more, Bool.false_eq_true, if_false]
    | true =>
      have less := run_smaller unique nodup asked (served n) have_ more
      obtain ⟨calls, items, rest, follows⟩ := ih _ (less.trans_le small) (n + 1)
        (faithful.decodeCursor (nodup_run nodup)) (nodup_run nodup)
        (fun s hs => (run_left unique (served n) have_ hs).1) le_rfl
      refine ⟨calls + 1, _, ?_, Follows.next unique served have_ follows⟩
      simp only [follow, call, answer, more, if_true, rest, Option.map_some]

/-- What each service has returned, put together. -/
theorem perm_returned {services : List Service} {items : List Item}
    (unique : (services.map Service.serviceId).Nodup)
    (own : ∀ item ∈ items, ∃ s ∈ services, serviceOf item = s.serviceId) :
    items.Perm (services.flatMap fun s => returned s.serviceId items) := by
  induction services generalizing items with
  | nil =>
    cases items with
    | nil => exact List.Perm.refl _
    | cons item items =>
      obtain ⟨s, hs, -⟩ := own item List.mem_cons_self
      cases hs
  | cons s services ih =>
    rw [List.map_cons, List.nodup_cons] at unique
    rw [List.flatMap_cons]
    have elsewhere : ∀ item ∈ items.filter fun item => !(serviceOf item = s.serviceId),
        ∃ s' ∈ services, serviceOf item = s'.serviceId := by
      intro item hitem
      obtain ⟨hitem, ne⟩ := List.mem_filter.mp hitem
      obtain ⟨s', hs', same⟩ := own item hitem
      rcases List.mem_cons.mp hs' with rfl | later
      · simp [same] at ne
      · exact ⟨s', later, same⟩
    have others := ih unique.2 elsewhere
    have same : ∀ s' ∈ services, returned s'.serviceId
        (items.filter fun item => !(serviceOf item = s.serviceId)) =
          returned s'.serviceId items := by
      intro s' hs'
      have ne : s'.serviceId ≠ s.serviceId := fun ids =>
        unique.1 (ids ▸ List.mem_map_of_mem hs')
      rw [returned, returned, List.filter_filter]
      refine List.filter_congr fun item _ => ?_
      by_cases here : serviceOf item = s'.serviceId
      · simp [here, ne]
      · simp [here]
    rw [List.flatMap_congr same] at others
    exact (List.filter_append_perm _ items).symm.trans (others.append_left _)

end Federation

/-- All items of all feeds. -/
def allItems (f : Federation) (feeds : String → Feed) : List Item :=
  f.enabled.flatMap fun s => (feeds s.serviceId).items s

theorem failed_tasks_merge_lossless (f : Federation) (faithful : f.codec.Faithful)
    (unique : (f.services.map Service.serviceId).Nodup) (feeds : String → Feed)
    (ups : Nat → Upstream)
    (served : ∀ n, ∀ s ∈ f.enabled, (feeds s.serviceId).ServedBy (ups n) s)
    (descending : ∀ s ∈ f.enabled, (feeds s.serviceId).Descending f.text)
    (limit : Nat) (asked : 1 ≤ limit) :
    ∃ calls items, f.follow ups limit calls 0 none = some items ∧
      items.Subperm (allItems f feeds) ∧
      (∀ s ∈ f.enabled, (∀ n, (feeds s.serviceId).Answers (ups n) s) →
        returned s.serviceId items = (feeds s.serviceId).items s) ∧
      ((∀ n, ∀ s ∈ f.enabled, (feeds s.serviceId).Answers (ups n) s) →
        items.Perm (allItems f feeds) ∧
        ((∀ s ∈ f.enabled, (feeds s.serviceId).NoGaps) →
          items.Pairwise fun a b => orderKey f.text b ≤ orderKey f.text a)) := by
  have decoded : f.codec.decodeCursor none = some ([], 0) := rfl
  obtain ⟨calls, items, run, follows⟩ := Federation.follow_ends faithful unique asked served _ 0
    decoded List.nodup_nil (fun s _ => (feeds s.serviceId).has_start) le_rfl
  have part : ∀ s ∈ f.enabled, ∃ rest, (feeds s.serviceId).items s =
      returned s.serviceId items ++ rest ∧
      ((∀ n, (feeds s.serviceId).Answers (ups n) s) → rest = []) := by
    intro s hs
    rw [← Feed.itemsLeft_start]
    exact follows.part s hs
  have all : ∀ s ∈ f.enabled, (∀ n, (feeds s.serviceId).Answers (ups n) s) →
      returned s.serviceId items = (feeds s.serviceId).items s := by
    intro s hs answers
    obtain ⟨rest, whole, none_⟩ := part s hs
    rw [whole, none_ answers, List.append_nil]
  have perm := Federation.perm_returned (Federation.unique_enabled unique) follows.own
  refine ⟨calls, items, run, ?_, all, fun answers => ⟨?_, fun gaps => follows.sorted fun n => ?_⟩⟩
  · refine perm.subperm.trans (List.Sublist.flatMap_right _ fun s hs => ?_).subperm
    obtain ⟨rest, whole, -⟩ := part s hs
    rw [whole]
    exact List.sublist_append_left _ _
  · refine perm.trans (List.Perm.of_eq (List.flatMap_congr fun s hs => ?_))
    exact all s hs fun n => answers n s hs
  · exact {
      answers := answers n
      has := fun s _ => (feeds s.serviceId).has_start
      full := fun s hs => Feed.full_start (gaps s hs)
      descending := fun s hs => Feed.descending_start (descending s hs) }

/-! ## Two services -/

/-- A service that answers with the pages of its feed. -/
def serve (feeds : String → Feed) : Upstream := fun sid cursor =>
  match (feeds sid).payload cursor with
  | some payload => .payload payload
  | none => .error { statusCode := 502, detail := "Upstream error.", code := "upstream_error" }

theorem answers_serve (feeds : String → Feed) (s : Service) :
    (feeds s.serviceId).Answers (serve feeds) s := by
  intro cursor payload here
  rw [serve, here]

def failedAt (failureId time : String) : Item :=
  [("failure_id", .str failureId), ("failed_at", .str time)]

/-- One service has two pages, and the other one has one. -/
def twoFeeds (sid : String) : Feed where
  first := if sid = "a" then [failedAt "a2" "2026-01-01T00:00:03Z"]
    else [failedAt "b1" "2026-01-01T00:00:02Z"]
  later := if sid = "a" then [("k", [failedAt "a1" "2026-01-01T00:00:01Z"])] else []
  distinct := by split <;> simp
  named := by split <;> simp

/-- The cursor between the two calls has the version 2 and the positions
`{"a":{"cursor":"k","skip":0},"b":{"cursor":null,"skip":1,"done":true}}`. -/
noncomputable def twoServices : Federation where
  text := plainText
  codec := tableCodec [
    (cursorValue [("a", { cursor := some "k" }), ("b", { skip := 1, done := true })],
      "eyJ2ZXJzaW9uIjoyLCJwb3NpdGlvbnMiOnsiYSI6eyJjdXJzb3IiOiJrIiwi" ++
      "c2tpcCI6MH0sImIiOnsiY3Vyc29yIjpudWxsLCJza2lwIjoxLCJkb25lIjp0cnVlfX19")]
  services := [{ serviceId := "a", name := "a" }, { serviceId := "b", name := "b" }]

theorem two_services_merged :
    ∃ calls items, twoServices.follow (fun _ => serve twoFeeds) 2 calls 0 none = some items ∧
      items.Perm (allItems twoServices twoFeeds) ∧
      items.Pairwise fun a b => orderKey plainText b ≤ orderKey plainText a := by
  have faithful : twoServices.codec.Faithful :=
    tableCodec_faithful ⟨by decide +kernel, by decide +kernel⟩
  have descending : ∀ s ∈ twoServices.enabled, (twoFeeds s.serviceId).Descending plainText := by
    intro s _
    unfold Feed.Descending Feed.pages twoFeeds
    by_cases here : s.serviceId = "a"
    · simp only [here, if_true]
      decide +kernel
    · simp only [here, if_false]
      decide +kernel
  have gaps : ∀ s ∈ twoServices.enabled, (twoFeeds s.serviceId).NoGaps := by
    intro s _
    unfold Feed.NoGaps Feed.pages twoFeeds
    by_cases here : s.serviceId = "a"
    · simp [here, failedAt]
    · simp [here]
  obtain ⟨calls, items, run, -, -, all⟩ := failed_tasks_merge_lossless twoServices faithful
    (by decide) twoFeeds (fun _ => serve twoFeeds)
    (fun _ s _ => (answers_serve twoFeeds s).servedBy) descending 2 (by decide)
  obtain ⟨perm, sorted⟩ := all fun _ s _ => answers_serve twoFeeds s
  exact ⟨calls, items, run, perm, sorted gaps⟩

end Relayna.Studio.FailedTaskFeeds
