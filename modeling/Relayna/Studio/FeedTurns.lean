import Relayna.Contracts.Aliases
import Relayna.Foundation.Keyed
import Relayna.Foundation.Turns
import Relayna.Studio.FailedTaskFeeds

/-!
# A call takes turns of the services

Seen from one service, a call of `list_failed_tasks` is a number of turns: a turn returns the next
item of the page at the position, or passes an empty page. The positions of the answer are where
these turns lead, whatever the other services do and whichever of them fail.
-/
namespace Relayna.Studio.FailedTaskFeeds

open Python Contracts Turns

variable {text : Text} {up : Upstream} {limit : Nat} {s s' : Service} {services : List Service}
  {c : Call} {sid : String} {p : Position}

/-- A turn of a service, if it answers and has not come to its end. -/
def turn (up : Upstream) (s : Service) (p : Position) : Option (List Item × Position) :=
  if p.done then none
  else match up s.serviceId p.cursor with
    | .payload q =>
      match (s.itemsOf q).drop p.skip with
      | [] => some ([], p.advance q.nextCursor)
      | [x] => some ([x], { p with skip := p.skip + 1 }.advance q.nextCursor)
      | x :: _ :: _ => some ([x], { p with skip := p.skip + 1 })
    | _ => none

theorem turn_of_done (ended : p.done = true) : turn up s p = none := by
  rw [turn, if_pos ended]

/-- The service that an item is from. -/
def serviceOf (item : Item) : String :=
  match item.lookup "service_id" with
  | some (.str sid) => sid
  | _ => ""

def returned (sid : String) (page : List Item) : List Item := page.filter (serviceOf · = sid)

theorem returned_append {page page' : List Item} :
    returned sid (page ++ page') = returned sid page ++ returned sid page' :=
  List.filter_append ..

/-- The reference to the task of an item is added to the other fields. -/
theorem lookup_normalize {item : Item} {key : String}
    (own : key ≠ "task_id" ∧ key ≠ "task_ref") :
    (s.normalizeFailedTaskPayload item).lookup key =
      (({ s with taskOf := fun _ => none } : Service).normalizeFailedTaskPayload item).lookup
        key := by
  unfold Service.normalizeFailedTaskPayload
  dsimp only
  cases s.taskOf item with
  | none => rfl
  | some task =>
    dsimp only
    rw [Fields.lookup_set_ne own.2, Fields.lookup_set_ne own.1]

/-- Only the names of the service and of the task are set. -/
theorem lookup_normalize_ne {item : Item} {key : String}
    (own : key ≠ "task_id" ∧ key ≠ "task_ref")
    (names : key ≠ "service_id" ∧ key ≠ "service_name") :
    (s.normalizeFailedTaskPayload item).lookup key = item.lookup key := by
  rw [lookup_normalize own, Service.normalizeFailedTaskPayload, Fields.lookup_set_ne names.2,
    Fields.lookup_set_ne names.1]

theorem serviceOf_normalize (item : Item) :
    serviceOf (s.normalizeFailedTaskPayload item) = s.serviceId := by
  rw [serviceOf, lookup_normalize (by decide), Service.normalizeFailedTaskPayload,
    Fields.lookup_set_ne (by decide), Fields.lookup_set_self]

theorem serviceOf_items {q : Payload} {item : Item} (h : item ∈ s.itemsOf q) :
    serviceOf item = s.serviceId := by
  obtain ⟨v, -, hv⟩ := List.mem_filterMap.mp h
  cases v with
  | dict fields =>
    cases hv
    exact serviceOf_normalize fields
  | _ => cases hv

namespace Call

@[simp] theorem position_setPosition : (c.setPosition sid p).position sid = p := by
  simp [position, setPosition, Fields.lookup_set_self]

theorem position_setPosition_ne {other : String} (ne : other ≠ sid) :
    (c.setPosition sid p).position other = c.position other := by
  simp [position, setPosition, Fields.lookup_set_ne ne]

@[simp] theorem pageOf_setPosition {other : String} :
    (c.setPosition sid p).pageOf other = c.pageOf other := rfl

/-- The page of a service is what is left, behind its position, of the page that was fetched. -/
def Loaded (up : Upstream) (s : Service) (c : Call) : Prop :=
  (c.position s.serviceId).done = false ∧
  ∃ q, up s.serviceId (c.position s.serviceId).cursor = .payload q ∧
    c.pageOf s.serviceId = (s.itemsOf q).drop (c.position s.serviceId).skip ∧
    (c.following.lookup s.serviceId).getD none = q.nextCursor

/-- How a call stands with a service. -/
structure Standing (up : Upstream) (s : Service) (start : Position) (c : Call) : Prop where
  given : Gives (turn up s) start (returned s.serviceId c.page) (c.position s.serviceId)
  loaded : c.pageOf s.serviceId ≠ [] → c.Loaded up s

/-- What a call holds of one service is the same in both. -/
structure Same (sid : String) (c c' : Call) : Prop where
  position : c'.position sid = c.position sid
  pageOf : c'.pageOf sid = c.pageOf sid
  following : c'.following.lookup sid = c.following.lookup sid
  returned : returned sid c'.page = returned sid c.page

theorem Loaded.same {c' : Call} (h : c.Loaded up s) (same : Same s.serviceId c c') :
    c'.Loaded up s := by
  obtain ⟨open_, q, hq, page, next⟩ := h
  unfold Loaded
  rw [same.position, same.pageOf, same.following]
  exact ⟨open_, q, hq, page, next⟩

theorem Standing.same {c' : Call} {start : Position} (h : c.Standing up s start)
    (same : Same s.serviceId c c') : c'.Standing up s start where
  given := by
    rw [same.returned, same.position]
    exact h.given
  loaded held := (h.loaded (same.pageOf ▸ held)).same same

/-! ## A fetch -/

@[simp] theorem position_load {items : List Item} {next : Option String} {other : String} :
    (c.load sid items next).position other = c.position other := rfl

@[simp] theorem pageOf_load {items : List Item} {next : Option String} :
    (c.load sid items next).pageOf sid = items := by
  simp [pageOf, load, Fields.lookup_set_self]

theorem load_same {items : List Item} {next : Option String} {other : String}
    (ne : other ≠ sid) : Same other c (c.load sid items next) where
  position := rfl
  pageOf := by simp [pageOf, load, Fields.lookup_set_ne ne]
  following := by simp [load, Fields.lookup_set_ne ne]
  returned := rfl

theorem setPosition_same {other : String} (ne : other ≠ sid) :
    Same other c (c.setPosition sid p) where
  position := position_setPosition_ne ne
  pageOf := rfl
  following := rfl
  returned := rfl

theorem Same.trans {c' c'' : Call} (h : Same sid c c') (h' : Same sid c' c'') :
    Same sid c c'' where
  position := h'.position.trans h.position
  pageOf := h'.pageOf.trans h.pageOf
  following := h'.following.trans h.following
  returned := h'.returned.trans h.returned

/-- What a fetch makes of a service at `p`: it stays where it is with nothing, its page is loaded,
or an empty page is passed. -/
inductive Fetched (up : Upstream) (s : Service) (p : Position) (c : Call) : Prop
  | ended (ended : p.done = true) (stays : c.position s.serviceId = p)
      (empty : c.pageOf s.serviceId = [])
  | failed (refused : ∀ q, up s.serviceId p.cursor ≠ .payload q)
      (stays : c.position s.serviceId = p) (empty : c.pageOf s.serviceId = [])
      (unavailable : s.serviceId ∈ c.unavailable)
  | loaded (stays : c.position s.serviceId = p) (some_ : c.pageOf s.serviceId ≠ [])
      (loaded : c.Loaded up s)
  | passed (passed : turn up s p = some ([], c.position s.serviceId))
      (empty : c.pageOf s.serviceId = [])

theorem fetchPage_ended (ended : (c.position s.serviceId).done = true) :
    c.fetchPage up s = c.setPosition s.serviceId (c.position s.serviceId) := by
  simp [fetchPage, ended]

theorem fetchPage_failed (open_ : (c.position s.serviceId).done = false)
    (refused : ∀ q, up s.serviceId (c.position s.serviceId).cursor ≠ .payload q) :
    ∃ e, c.fetchPage up s =
      (c.setPosition s.serviceId (c.position s.serviceId)).fail s.serviceId e := by
  simp only [fetchPage, open_, Bool.false_eq_true, if_false]
  split
  · exact ⟨_, rfl⟩
  · exact ⟨_, rfl⟩
  · exact absurd ‹_› (refused _)

theorem fetchPage_payload {q : Payload} (open_ : (c.position s.serviceId).done = false)
    (hq : up s.serviceId (c.position s.serviceId).cursor = .payload q) :
    c.fetchPage up s =
      let items := (s.itemsOf q).drop (c.position s.serviceId).skip
      let c' := (c.setPosition s.serviceId (c.position s.serviceId)).load s.serviceId items
        q.nextCursor
      if items.isEmpty then
        c'.setPosition s.serviceId ((c.position s.serviceId).advance q.nextCursor)
      else c' := by
  simp only [fetchPage, open_, Bool.false_eq_true, if_false, hq]

theorem fetchPage_spec (empty : c.pageOf s.serviceId = []) :
    Fetched up s (c.position s.serviceId) (c.fetchPage up s) := by
  by_cases ended : (c.position s.serviceId).done = true
  · rw [fetchPage_ended ended]
    exact .ended ended position_setPosition empty
  rw [Bool.not_eq_true] at ended
  by_cases answered : ∃ q, up s.serviceId (c.position s.serviceId).cursor = .payload q
  · obtain ⟨q, hq⟩ := answered
    rw [fetchPage_payload ended hq]
    dsimp only
    split
    · rename_i nothing
      refine .passed ?_ (by simpa using nothing)
      simp [turn, ended, hq, List.isEmpty_iff.mp nothing]
    · rename_i something
      rw [List.isEmpty_iff] at something
      refine .loaded (by simp) (by simpa using something) ⟨by simpa using ended, q, ?_, ?_, ?_⟩
      · simpa using hq
      · simp
      · simp [load, Fields.lookup_set_self]
  · rw [not_exists] at answered
    obtain ⟨e, he⟩ := fetchPage_failed ended answered
    rw [he]
    exact .failed answered position_setPosition empty (by simp [fail])

/-- A fetch does nothing to the other services, and returns nothing. -/
theorem fetchPage_same (ne : sid ≠ s.serviceId) : Same sid c (c.fetchPage up s) := by
  have kept : Same sid c (c.setPosition s.serviceId (c.position s.serviceId)) :=
    setPosition_same ne
  by_cases ended : (c.position s.serviceId).done = true
  · rw [fetchPage_ended ended]
    exact kept
  rw [Bool.not_eq_true] at ended
  by_cases answered : ∃ q, up s.serviceId (c.position s.serviceId).cursor = .payload q
  · obtain ⟨q, hq⟩ := answered
    rw [fetchPage_payload ended hq]
    dsimp only
    split
    · exact (kept.trans (load_same ne)).trans (setPosition_same ne)
    · exact kept.trans (load_same ne)
  · obtain ⟨e, he⟩ := fetchPage_failed ended (not_exists.mp answered)
    rw [he]
    exact ⟨kept.position, kept.pageOf, kept.following, kept.returned⟩

/-- What a fetch does to the rest of the call. -/
structure Frame (up : Upstream) (s : Service) (c c' : Call) : Prop where
  page : c'.page = c.page
  legacyOffset : c'.legacyOffset = c.legacyOffset
  pages : c'.pages = c.pages ∨ ∃ items, c'.pages = Fields.set c.pages s.serviceId items
  unavailable : c'.unavailable = c.unavailable ∨
    c'.unavailable = c.unavailable ++ [s.serviceId] ∧ (c.position s.serviceId).done = false ∧
      ∀ q, up s.serviceId (c.position s.serviceId).cursor ≠ .payload q

theorem fetchPage_frame : Frame up s c (c.fetchPage up s) := by
  by_cases ended : (c.position s.serviceId).done = true
  · rw [fetchPage_ended ended]
    exact ⟨rfl, rfl, Or.inl rfl, Or.inl rfl⟩
  rw [Bool.not_eq_true] at ended
  by_cases answered : ∃ q, up s.serviceId (c.position s.serviceId).cursor = .payload q
  · obtain ⟨q, hq⟩ := answered
    rw [fetchPage_payload ended hq]
    dsimp only
    split
    · exact ⟨rfl, rfl, Or.inr ⟨_, rfl⟩, Or.inl rfl⟩
    · exact ⟨rfl, rfl, Or.inr ⟨_, rfl⟩, Or.inl rfl⟩
  · have answered := not_exists.mp answered
    obtain ⟨e, he⟩ := fetchPage_failed ended answered
    rw [he]
    exact ⟨rfl, rfl, Or.inl rfl, Or.inr ⟨rfl, ended, answered⟩⟩

theorem Standing.fetchPage {start : Position} (h : c.Standing up s start)
    (empty : c.pageOf s.serviceId = []) : (c.fetchPage up s).Standing up s start := by
  have spec : Fetched up s (c.position s.serviceId) (c.fetchPage up s) := fetchPage_spec empty
  cases spec with
  | ended _ stays empty => exact ⟨by rw [fetchPage_frame.page, stays]; exact h.given, absurd empty⟩
  | failed _ stays empty => exact ⟨by rw [fetchPage_frame.page, stays]; exact h.given, absurd empty⟩
  | loaded stays _ loaded =>
    exact ⟨by rw [fetchPage_frame.page, stays]; exact h.given, fun _ => loaded⟩
  | passed passed empty =>
    refine ⟨?_, absurd empty⟩
    rw [fetchPage_frame.page]
    simpa using h.given.next passed

theorem Fetched.same {c' : Call} (h : Fetched up s p c) (same : Same s.serviceId c c')
    (more : c.unavailable ⊆ c'.unavailable) : Fetched up s p c' := by
  cases h with
  | ended ended stays empty =>
    exact .ended ended (same.position.trans stays) (same.pageOf.trans empty)
  | failed refused stays empty unavailable =>
    exact .failed refused (same.position.trans stays) (same.pageOf.trans empty) (more unavailable)
  | loaded stays some_ loaded =>
    exact .loaded (same.position.trans stays) (same.pageOf.trans_ne some_) (loaded.same same)
  | passed passed empty =>
    exact .passed (by rw [same.position]; exact passed) (same.pageOf.trans empty)

/-! ## A round -/

section Round

variable {item : Item}

theorem emit_eq (plain : c.legacyOffset = 0) : c.emit sid item =
    { c.setPosition sid { c.position sid with skip := (c.position sid).skip + 1 } with
      pages := Fields.set c.pages sid (c.pageOf sid).tail
      page := c.page ++ [item] } := by
  unfold emit
  dsimp only
  rw [if_neg]
  · rfl
  · exact fun h => h plain

theorem position_emit (plain : c.legacyOffset = 0) : (c.emit sid item).position sid =
    { c.position sid with skip := (c.position sid).skip + 1 } := by
  rw [emit_eq plain]
  exact position_setPosition

theorem pageOf_emit (plain : c.legacyOffset = 0) :
    (c.emit sid item).pageOf sid = (c.pageOf sid).tail := by
  rw [emit_eq plain]
  simp [pageOf, Fields.lookup_set_self]

theorem emit_same {other : String} (plain : c.legacyOffset = 0) (ne : other ≠ sid)
    (own : serviceOf item = sid) : Same other c (c.emit sid item) := by
  rw [emit_eq plain]
  refine ⟨position_setPosition_ne ne, ?_, rfl, ?_⟩
  · simp [pageOf, Fields.lookup_set_ne ne]
  · simp [returned, List.filter_append, own, Ne.symm ne]

/-- Where the position comes to when the page is used up. -/
def turned (c : Call) (sid : String) : Call :=
  c.setPosition sid ((c.position sid).advance ((c.following.lookup sid).getD none))

theorem turnPage_of_some (held : c.pageOf sid ≠ []) :
    c.turnPage up limit services sid = c := by
  rw [turnPage, if_neg (by simpa using held)]

/-- With the page used up, the next one is fetched if there is one and more is asked for. -/
theorem turnPage_of_empty (empty : c.pageOf s.serviceId = [])
    (found : services.find? (·.serviceId = s.serviceId) = some s) :
    c.turnPage up limit services s.serviceId =
      if ((c.turned s.serviceId).position s.serviceId).done = false ∧ c.page.length < limit then
        (c.turned s.serviceId).fetchPage up s
      else c.turned s.serviceId := by
  rw [turnPage, if_pos (by simpa using empty)]
  unfold turned
  rw [position_setPosition, Position.advance]
  cases hp : (c.position s.serviceId).following
      ((c.following.lookup s.serviceId).getD none) with
  | none => simp
  | some p =>
    have open_ : p.done = false := by
      unfold Position.following at hp
      split at hp
      · split at hp
        · cases hp
          rfl
        · cases hp
      · cases hp
    simp only [Option.getD_some, open_, true_and, found]
    rfl

/-- The first item of a page leaves it: a turn of the service. -/
theorem emit_turn {tail : List Item} (plain : c.legacyOffset = 0) (loaded : c.Loaded up s)
    (page : c.pageOf s.serviceId = item :: tail) :
    turn up s (c.position s.serviceId) = some ([item],
      if tail = [] then ((c.emit s.serviceId item).turned s.serviceId).position s.serviceId
      else (c.emit s.serviceId item).position s.serviceId) := by
  obtain ⟨open_, q, hq, rest, next⟩ := loaded
  have next' : ((c.emit s.serviceId item).following.lookup s.serviceId).getD none =
      q.nextCursor := by
    rw [emit_eq plain]
    exact next
  rw [turned, position_setPosition, position_emit plain, next']
  rw [page] at rest
  cases tail with
  | nil => simp [turn, open_, hq, ← rest]
  | cons y tail => simp [turn, open_, hq, ← rest]

theorem serviceOf_loaded {tail : List Item} (loaded : c.Loaded up s)
    (page : c.pageOf s.serviceId = item :: tail) : serviceOf item = s.serviceId := by
  obtain ⟨-, q, -, rest, -⟩ := loaded
  have held : item ∈ (s.itemsOf q).drop (c.position s.serviceId).skip := by
    rw [← rest, page]
    exact List.mem_cons_self
  exact serviceOf_items (List.mem_of_mem_drop held)

theorem returned_emit (plain : c.legacyOffset = 0) (own : serviceOf item = sid) :
    returned sid (c.emit sid item).page = returned sid c.page ++ [item] := by
  rw [emit_eq plain]
  simp [returned, List.filter_append, own]

/-- The service stands where the item has left its page. -/
theorem Standing.emit {tail : List Item} {start : Position} (h : c.Standing up s start)
    (plain : c.legacyOffset = 0) (page : c.pageOf s.serviceId = item :: tail) :
    (if tail = [] then (c.emit s.serviceId item).turned s.serviceId
      else c.emit s.serviceId item).Standing up s start := by
  have loaded := h.loaded (by simp [page])
  have taken := h.given.next (emit_turn plain loaded page)
  have out := returned_emit plain (serviceOf_loaded loaded page)
  obtain ⟨open_, q, hq, rest, next⟩ := loaded
  split
  · rename_i last
    rw [if_pos last] at taken
    refine ⟨?_, fun held => absurd ?_ held⟩
    · rw [← out] at taken
      exact taken
    · exact (pageOf_emit plain).trans (by rw [page]; exact last)
  · rename_i more
    rw [if_neg more, ← out] at taken
    refine ⟨taken, fun _ => ?_⟩
    unfold Loaded
    rw [position_emit plain, pageOf_emit plain, page, List.tail_cons]
    refine ⟨open_, q, hq, ?_, ?_⟩
    · rw [page] at rest
      rw [← List.tail_drop, ← rest, List.tail_cons]
    · rw [emit_eq plain]
      exact next

/-- Turning the page of one service does nothing to the others. -/
theorem turnPage_same {other : String} (ne : other ≠ s.serviceId)
    (found : services.find? (·.serviceId = s.serviceId) = some s) :
    Same other c (c.turnPage up limit services s.serviceId) := by
  by_cases last : c.pageOf s.serviceId = []
  · rw [turnPage_of_empty last found]
    have moved : Same other c (c.turned s.serviceId) := setPosition_same ne
    split
    · exact moved.trans (fetchPage_same ne)
    · exact moved
  · rw [turnPage_of_some last]
    exact ⟨rfl, rfl, rfl, rfl⟩

theorem turnPage_page (found : services.find? (·.serviceId = s.serviceId) = some s) :
    (c.turnPage up limit services s.serviceId).page = c.page := by
  by_cases last : c.pageOf s.serviceId = []
  · rw [turnPage_of_empty last found]
    split
    · exact fetchPage_frame.page
    · rfl
  · rw [turnPage_of_some last]

end Round

/-! ## All services -/

/-- The pages are of the services, and so is what was returned. -/
structure Kept (services : List Service) (c : Call) : Prop where
  plain : c.legacyOffset = 0
  keys : (c.pages.map Prod.fst).Nodup
  known : ∀ entry ∈ c.pages, ∃ s ∈ services, s.serviceId = entry.1
  own : ∀ item ∈ c.page, ∃ s ∈ services, serviceOf item = s.serviceId

namespace Kept

theorem setPosition (h : c.Kept services) : (c.setPosition sid p).Kept services :=
  ⟨h.plain, h.keys, h.known, h.own⟩

theorem fetchPage (h : c.Kept services) (hs : s ∈ services) :
    (c.fetchPage up s).Kept services := by
  have frame : Frame up s c (c.fetchPage up s) := fetchPage_frame
  constructor
  case plain => exact frame.legacyOffset.trans h.plain
  case keys =>
    rcases frame.pages with same | ⟨items, set_⟩
    · rw [same]
      exact h.keys
    · rw [set_]
      exact Fields.keys_set h.keys
  case known =>
    intro entry hentry
    rcases frame.pages with same | ⟨items, set_⟩
    · rw [same] at hentry
      exact h.known entry hentry
    · rw [set_] at hentry
      rcases Fields.mem_set hentry with old | rfl
      · exact h.known entry old
      · exact ⟨s, hs, rfl⟩
  case own =>
    rw [frame.page]
    exact h.own

theorem emit {item : Item} (h : c.Kept services) (hs : s ∈ services)
    (own : serviceOf item = s.serviceId) : (c.emit s.serviceId item).Kept services := by
  rw [emit_eq h.plain]
  refine ⟨h.plain, Fields.keys_set h.keys, fun entry hentry => ?_, fun item' hitem => ?_⟩
  · rcases Fields.mem_set hentry with old | rfl
    · exact h.known entry old
    · exact ⟨s, hs, rfl⟩
  · rcases List.mem_append.mp hitem with old | here
    · exact h.own item' old
    · rw [List.mem_singleton.mp here]
      exact ⟨s, hs, own⟩

/-- A candidate is the first item of the page of a service. -/
theorem of_mem_candidates {candidate : String × Item} (h : c.Kept services)
    (hc : candidate ∈ c.candidates) :
    ∃ s ∈ services, s.serviceId = candidate.1 ∧
      ∃ tail, c.pageOf s.serviceId = candidate.2 :: tail := by
  obtain ⟨⟨sid, items⟩, hentry, hhead⟩ := List.mem_filterMap.mp hc
  obtain ⟨item, first, rfl⟩ := Option.map_eq_some_iff.mp hhead
  obtain ⟨s, hs, rfl⟩ := h.known _ hentry
  refine ⟨s, hs, rfl, items.tail, ?_⟩
  rw [pageOf, Fields.lookup_of_mem h.keys hentry, Option.getD_some]
  exact List.eq_cons_of_mem_head? first

theorem mem_candidates {item : Item} {tail : List Item} (page : c.pageOf sid = item :: tail) :
    (sid, item) ∈ c.candidates := by
  unfold pageOf at page
  cases found : c.pages.lookup sid with
  | none =>
    rw [found] at page
    cases page
  | some items =>
    rw [found, Option.getD_some] at page
    refine List.mem_filterMap.mpr ⟨(sid, items), Fields.mem_of_lookup found, ?_⟩
    rw [page]
    rfl

end Kept

theorem merge_succ {c' : Call} {rounds : Nat} (room : c.page.length < limit)
    (step : c.round text up limit services = some c') :
    c.merge text up limit services (rounds + 1) = c'.merge text up limit services rounds := by
  rw [merge, if_pos room, step]

/-- How a call stands with all services. -/
structure Reading (up : Upstream) (services : List Service) (start : String → Position)
    (c : Call) : Prop extends Kept services c where
  standing : ∀ s ∈ services, c.Standing up s (start s.serviceId)

/-- Who is unavailable has failed at a position to which its turns have led. -/
def Blamed (up : Upstream) (services : List Service) (start : String → Position) (c : Call) :
    Prop :=
  ∀ sid ∈ c.unavailable, ∃ s ∈ services, s.serviceId = sid ∧
    ∃ xs p, Gives (turn up s) (start s.serviceId) xs p ∧ p.done = false ∧
      ∀ q, up s.serviceId p.cursor ≠ .payload q

variable {start : String → Position}

namespace Reading

/-- The services other than `s`. -/
theorem standing_others {c' : Call} (h : c.Reading up services start)
    (unique : (services.map Service.serviceId).Nodup) (hs : s ∈ services)
    (same : ∀ other ≠ s.serviceId, Same other c c')
    (stands : c'.Standing up s (start s.serviceId)) :
    ∀ s' ∈ services, c'.Standing up s' (start s'.serviceId) := by
  intro s' hs'
  by_cases here : s' = s
  · rw [here]
    exact stands
  · refine (h.standing s' hs').same (same _ fun ids => here ?_)
    exact List.inj_on_of_nodup_map unique hs' hs ids

theorem fetchPage (h : c.Reading up services start)
    (unique : (services.map Service.serviceId).Nodup) (hs : s ∈ services)
    (empty : c.pageOf s.serviceId = []) : (c.fetchPage up s).Reading up services start where
  toKept := h.toKept.fetchPage hs
  standing := h.standing_others unique hs (fun _ ne => fetchPage_same ne)
    ((h.standing s hs).fetchPage empty)

theorem blamed_fetchPage (h : c.Reading up services start) (hs : s ∈ services)
    (blamed : c.Blamed up services start) : (c.fetchPage up s).Blamed up services start := by
  intro sid hsid
  have frame : Frame up s c (c.fetchPage up s) := fetchPage_frame
  rcases frame.unavailable with same | ⟨more, open_, refused⟩
  · rw [same] at hsid
    exact blamed sid hsid
  · rw [more, List.mem_append, List.mem_singleton] at hsid
    rcases hsid with old | rfl
    · exact blamed sid old
    · exact ⟨s, hs, rfl, _, _, (h.standing s hs).given, open_, refused⟩

theorem emit {item : Item} {tail : List Item} (h : c.Reading up services start)
    (unique : (services.map Service.serviceId).Nodup) (hs : s ∈ services)
    (page : c.pageOf s.serviceId = item :: tail) :
    (if tail = [] then (c.emit s.serviceId item).turned s.serviceId
      else c.emit s.serviceId item).Reading up services start := by
  have own := serviceOf_loaded ((h.standing s hs).loaded (by simp [page])) page
  have stands := (h.standing s hs).emit h.plain page
  have emitted : ∀ other ≠ s.serviceId, Same other c (c.emit s.serviceId item) :=
    fun _ ne => emit_same h.plain ne own
  split
  · rename_i last
    rw [if_pos last] at stands
    exact {
      toKept := (h.toKept.emit hs own).setPosition
      standing := h.standing_others unique hs
        (fun _ ne => (emitted _ ne).trans (setPosition_same ne)) stands }
  · rename_i more
    rw [if_neg more] at stands
    exact {
      toKept := h.toKept.emit hs own
      standing := h.standing_others unique hs emitted stands }

theorem turnPage {item : Item} {tail : List Item} (h : c.Reading up services start)
    (unique : (services.map Service.serviceId).Nodup) (hs : s ∈ services)
    (page : c.pageOf s.serviceId = item :: tail) :
    ((c.emit s.serviceId item).turnPage up limit services s.serviceId).Reading
      up services start := by
  have found : services.find? (·.serviceId = s.serviceId) = some s :=
    Keyed.get?_of_mem unique hs
  have emitted := h.emit unique hs page
  have left : (c.emit s.serviceId item).pageOf s.serviceId = tail := by
    rw [pageOf_emit h.plain, page, List.tail_cons]
  by_cases last : tail = []
  · rw [if_pos last] at emitted
    rw [turnPage_of_empty (left.trans last) found]
    split
    · exact emitted.fetchPage unique hs (left.trans last)
    · exact emitted
  · rw [if_neg last] at emitted
    rwa [turnPage_of_some (left.trans_ne last)]

theorem blamed_turnPage {item : Item} {tail : List Item} (h : c.Reading up services start)
    (unique : (services.map Service.serviceId).Nodup) (hs : s ∈ services)
    (page : c.pageOf s.serviceId = item :: tail) (blamed : c.Blamed up services start) :
    ((c.emit s.serviceId item).turnPage up limit services s.serviceId).Blamed
      up services start := by
  have found : services.find? (·.serviceId = s.serviceId) = some s :=
    Keyed.get?_of_mem unique hs
  have emitted := h.emit unique hs page
  have blamed : (c.emit s.serviceId item).Blamed up services start := by
    rw [emit_eq h.plain]
    exact blamed
  have left : (c.emit s.serviceId item).pageOf s.serviceId = tail := by
    rw [pageOf_emit h.plain, page, List.tail_cons]
  by_cases last : tail = []
  · rw [if_pos last] at emitted
    rw [turnPage_of_empty (left.trans last) found]
    split
    · exact emitted.blamed_fetchPage hs blamed
    · exact blamed
  · rwa [turnPage_of_some (left.trans_ne last)]

theorem round {c' : Call} (h : c.Reading up services start)
    (unique : (services.map Service.serviceId).Nodup)
    (step : c.round text up limit services = some c') : c'.Reading up services start := by
  obtain ⟨candidate, chosen, rfl⟩ := Option.map_eq_some_iff.mp step
  obtain ⟨s, hs, same, tail, page⟩ := h.of_mem_candidates (List.argmax_mem chosen)
  rw [← same]
  exact h.turnPage unique hs page

theorem blamed_round {c' : Call} (h : c.Reading up services start)
    (unique : (services.map Service.serviceId).Nodup) (blamed : c.Blamed up services start)
    (step : c.round text up limit services = some c') : c'.Blamed up services start := by
  obtain ⟨candidate, chosen, rfl⟩ := Option.map_eq_some_iff.mp step
  obtain ⟨s, hs, same, tail, page⟩ := h.of_mem_candidates (List.argmax_mem chosen)
  rw [← same]
  exact h.blamed_turnPage unique hs page blamed

theorem blamed_merge (h : c.Reading up services start)
    (unique : (services.map Service.serviceId).Nodup) (blamed : c.Blamed up services start)
    (rounds : Nat) : (c.merge text up limit services rounds).Blamed up services start := by
  induction rounds generalizing c with
  | zero => exact blamed
  | succ rounds ih =>
    unfold Call.merge
    split
    · cases step : c.round text up limit services with
      | none => exact blamed
      | some c' => exact ih (h.round unique step) (h.blamed_round unique blamed step)
    · exact blamed

theorem merge (h : c.Reading up services start)
    (unique : (services.map Service.serviceId).Nodup) (rounds : Nat) :
    (c.merge text up limit services rounds).Reading up services start := by
  induction rounds generalizing c with
  | zero => exact h
  | succ rounds ih =>
    unfold Call.merge
    split
    · cases step : c.round text up limit services with
      | none => exact h
      | some c' => exact ih (h.round unique step)
    · exact h

end Reading

/-! ## What only grows -/

/-- Positions are added and replaced, services become unavailable, items are returned. -/
structure Grows (c c' : Call) : Prop where
  nodup : (c.positions.map Prod.fst).Nodup → (c'.positions.map Prod.fst).Nodup
  keys : c.positions.map Prod.fst ⊆ c'.positions.map Prod.fst
  unavailable : c.unavailable ⊆ c'.unavailable
  page : c.page <+: c'.page

namespace Grows

theorem refl (c : Call) : Grows c c := ⟨id, fun _ => id, fun _ => id, List.prefix_rfl⟩

theorem trans {c' c'' : Call} (h : Grows c c') (h' : Grows c' c'') : Grows c c'' where
  nodup := h'.nodup ∘ h.nodup
  keys := List.Subset.trans h.keys h'.keys
  unavailable := List.Subset.trans h.unavailable h'.unavailable
  page := h.page.trans h'.page

theorem setPosition : Grows c (c.setPosition sid p) :=
  ⟨Fields.keys_set, fun _ hk => Fields.mem_keys_set.mpr (Or.inl hk), fun _ => id, List.prefix_rfl⟩

theorem fetchPage : Grows c (c.fetchPage up s) := by
  have kept : Grows c (c.setPosition s.serviceId (c.position s.serviceId)) := setPosition
  by_cases ended : (c.position s.serviceId).done = true
  · rw [fetchPage_ended ended]
    exact kept
  rw [Bool.not_eq_true] at ended
  by_cases answered : ∃ q, up s.serviceId (c.position s.serviceId).cursor = .payload q
  · obtain ⟨q, hq⟩ := answered
    rw [fetchPage_payload ended hq]
    dsimp only
    split
    · exact kept.trans ⟨setPosition.nodup, setPosition.keys, fun _ => id, List.prefix_rfl⟩
    · exact kept.trans ⟨id, fun _ => id, fun _ => id, List.prefix_rfl⟩
  · obtain ⟨e, he⟩ := fetchPage_failed ended (not_exists.mp answered)
    rw [he]
    exact kept.trans ⟨id, fun _ => id, List.subset_append_left _ _, List.prefix_rfl⟩

theorem emit {item : Item} : Grows c (c.emit sid item) := by
  unfold Call.emit
  dsimp only
  split
  · exact ⟨setPosition.nodup, setPosition.keys, fun _ => id, List.prefix_rfl⟩
  · exact ⟨setPosition.nodup, setPosition.keys, fun _ => id, List.prefix_append _ _⟩

theorem turnPage : Grows c (c.turnPage up limit services sid) := by
  unfold Call.turnPage
  split
  · split
    · dsimp only
      split
      · split
        · exact setPosition.trans fetchPage
        · exact setPosition
      · exact setPosition
    · exact setPosition
  · exact refl c

theorem merge {rounds : Nat} : Grows c (c.merge text up limit services rounds) := by
  induction rounds generalizing c with
  | zero => exact refl c
  | succ rounds ih =>
    unfold Call.merge
    split
    · cases step : c.round text up limit services with
      | none => exact refl c
      | some c' =>
        obtain ⟨candidate, -, rfl⟩ := Option.map_eq_some_iff.mp step
        exact (emit.trans turnPage).trans ih
    · exact refl c

theorem fetchAll {rest : List Service} : Grows c (rest.foldl (Call.fetchPage up) c) := by
  induction rest generalizing c with
  | nil => exact refl c
  | cons s rest ih => exact fetchPage.trans ih

end Grows

theorem mem_positions_fetchPage : s.serviceId ∈ (c.fetchPage up s).positions.map Prod.fst := by
  have here {c : Call} {p : Position} :
      s.serviceId ∈ (c.setPosition s.serviceId p).positions.map Prod.fst :=
    Fields.mem_keys_set.mpr (Or.inr rfl)
  unfold fetchPage
  dsimp only
  split
  · exact here
  · split
    · exact here
    · exact here
    · split
      · exact here
      · exact here

theorem mem_positions_fetchAll {rest : List Service} (hs : s ∈ rest) :
    s.serviceId ∈ (rest.foldl (fetchPage up) c).positions.map Prod.fst := by
  induction rest generalizing c with
  | nil => cases hs
  | cons s' rest ih =>
    rcases List.mem_cons.mp hs with rfl | later
    · have later : Grows (c.fetchPage up s) (rest.foldl (fetchPage up) (c.fetchPage up s)) :=
        Grows.fetchAll
      exact later.keys mem_positions_fetchPage
    · exact ih later

/-- More follows as long as some service has not come to its end and did not fail. -/
theorem hasMore_iff (nodup : (c.positions.map Prod.fst).Nodup)
    (listed : ∀ s ∈ services, s.serviceId ∈ c.positions.map Prod.fst) :
    c.hasMore services = true ↔ ∃ s ∈ services,
      (c.position s.serviceId).done = false ∧ s.serviceId ∉ c.unavailable := by
  simp only [hasMore, List.any_eq_true, Bool.and_eq_true, decide_eq_true_eq, Bool.not_eq_true',
    List.contains_eq_mem, decide_eq_false_iff_not]
  constructor
  · rintro ⟨⟨sid, p⟩, hentry, ⟨⟨s, hs, rfl⟩, open_⟩, available⟩
    refine ⟨s, hs, ?_, available⟩
    rw [position, Fields.lookup_of_mem nodup hentry]
    exact open_
  · rintro ⟨s, hs, open_, available⟩
    obtain ⟨⟨sid, p⟩, hentry, rfl⟩ := List.mem_map.mp (listed s hs)
    rw [position, Fields.lookup_of_mem nodup hentry] at open_
    exact ⟨_, hentry, ⟨⟨s, hs, rfl⟩, open_⟩, available⟩

/-! ## The fetches before the loop -/

theorem fetchAll (unique : (services.map Service.serviceId).Nodup) {rest : List Service}
    (sub : rest.Sublist services) (h : c.Reading up services start)
    (blamed : c.Blamed up services start)
    (unread : ∀ s ∈ rest, c.pageOf s.serviceId = [] ∧ c.position s.serviceId = start s.serviceId) :
    (rest.foldl (fetchPage up) c).Reading up services start ∧
    (rest.foldl (fetchPage up) c).Blamed up services start ∧
    (∀ s ∈ rest, Fetched up s (start s.serviceId) (rest.foldl (fetchPage up) c)) ∧
    (rest.foldl (fetchPage up) c).page = c.page ∧
    c.unavailable ⊆ (rest.foldl (fetchPage up) c).unavailable ∧
    ∀ other ∉ rest.map Service.serviceId, Same other c (rest.foldl (fetchPage up) c) := by
  induction rest generalizing c with
  | nil =>
    exact ⟨h, blamed, List.forall_mem_nil _, rfl, List.Subset.refl _,
      fun _ _ => ⟨rfl, rfl, rfl, rfl⟩⟩
  | cons s rest ih =>
    have hs : s ∈ services := sub.subset List.mem_cons_self
    obtain ⟨first, apart⟩ := List.nodup_cons.mp ((sub.map Service.serviceId).nodup unique)
    obtain ⟨⟨empty, at_start⟩, unread⟩ := List.forall_mem_cons.mp unread
    have fetched : Fetched up s (start s.serviceId) (c.fetchPage up s) :=
      at_start ▸ fetchPage_spec empty
    have others : ∀ other ≠ s.serviceId, Same other c (c.fetchPage up s) :=
      fun _ ne => fetchPage_same ne
    have frame : Frame up s c (c.fetchPage up s) := fetchPage_frame
    obtain ⟨reading, blamed, rest_, page, more, same⟩ := ih
      ((List.sublist_cons_self s rest).trans sub) (h.fetchPage unique hs empty)
      (h.blamed_fetchPage hs blamed) fun s' hs' => by
        have ne : s'.serviceId ≠ s.serviceId := fun ids =>
          first (ids ▸ List.mem_map_of_mem hs')
        rw [(others _ ne).pageOf, (others _ ne).position]
        exact unread s' hs'
    refine ⟨reading, blamed, List.forall_mem_cons.mpr ⟨fetched.same (same _ first) more, rest_⟩,
      page.trans frame.page, List.Subset.trans ?_ more, fun other absent => ?_⟩
    · rcases frame.unavailable with same | ⟨longer, -⟩
      · rw [same]
        exact List.Subset.refl _
      · rw [longer]
        exact List.subset_append_left _ _
    · rw [List.map_cons, List.mem_cons, not_or] at absent
      exact (others other absent.1).trans (same other absent.2)

end Call

/-! ## A whole call -/

namespace Federation

variable {f : Federation} {positions : Fields Position}

theorem unique_enabled (unique : (f.services.map Service.serviceId).Nodup) :
    (f.enabled.map Service.serviceId).Nodup :=
  (List.filter_sublist.map _).nodup unique

/-- The position of a service in a cursor. -/
def positionAt (positions : Fields Position) (sid : String) : Position :=
  (positions.lookup sid).getD {}

/-- The call after its first fetches. -/
def fetched (f : Federation) (up : Upstream) (positions : Fields Position) : Call :=
  f.enabled.foldl (Call.fetchPage up) { positions, legacyOffset := 0 }

theorem run_eq : f.run up limit positions 0 =
    (f.fetched up positions).merge f.text up limit f.enabled limit := by
  rw [run, fetched, Nat.zero_add]

/-- The first fetches, from the positions of a cursor. -/
theorem fetched_spec (f : Federation) (up : Upstream) (positions : Fields Position)
    (unique : (f.services.map Service.serviceId).Nodup) :
    (f.fetched up positions).Reading up f.enabled (positionAt positions) ∧
    (f.fetched up positions).Blamed up f.enabled (positionAt positions) ∧
    (∀ s ∈ f.enabled, Call.Fetched up s (positionAt positions s.serviceId)
      (f.fetched up positions)) ∧ (f.fetched up positions).page = [] := by
  have start : Call.Reading up f.enabled (positionAt positions) { positions, legacyOffset := 0 } :=
    { plain := rfl
      keys := List.nodup_nil
      known := List.forall_mem_nil _
      own := List.forall_mem_nil _
      standing := fun _ _ => ⟨.stay, fun held => absurd rfl held⟩ }
  obtain ⟨reading, blamed, each, page, -, -⟩ := Call.fetchAll (unique_enabled unique)
    (List.Sublist.refl f.enabled) start (fun _ none_ => absurd none_ List.not_mem_nil)
    fun _ _ => ⟨rfl, rfl⟩
  exact ⟨reading, blamed, each, page⟩

/-- What a call returns of each service is what its turns give, from the position before to the
position after. -/
theorem run_reading (unique : (f.services.map Service.serviceId).Nodup) :
    (f.run up limit positions 0).Reading up f.enabled (positionAt positions) := by
  rw [run_eq]
  exact (f.fetched_spec up positions unique).1.merge (unique_enabled unique) limit

theorem run_blamed (unique : (f.services.map Service.serviceId).Nodup) :
    (f.run up limit positions 0).Blamed up f.enabled (positionAt positions) := by
  obtain ⟨reading, blamed, -, -⟩ := f.fetched_spec up positions unique
  rw [run_eq]
  exact reading.blamed_merge (unique_enabled unique) blamed limit

theorem grows_run : Call.Grows (f.fetched up positions) (f.run up limit positions 0) := by
  rw [run_eq]
  exact .merge

theorem nodup_run (nodup : (positions.map Prod.fst).Nodup) :
    ((f.run up limit positions 0).positions.map Prod.fst).Nodup := by
  have first : Call.Grows { positions, legacyOffset := 0 } (f.fetched up positions) := .fetchAll
  exact grows_run.nodup (first.nodup nodup)

theorem hasMore_run (nodup : (positions.map Prod.fst).Nodup) :
    (f.run up limit positions 0).hasMore f.enabled = true ↔ ∃ s ∈ f.enabled,
      ((f.run up limit positions 0).position s.serviceId).done = false ∧
        s.serviceId ∉ (f.run up limit positions 0).unavailable :=
  Call.hasMore_iff (nodup_run nodup) fun _ hs => grows_run.keys (Call.mem_positions_fetchAll hs)

/-- The turns after the first fetches. -/
theorem run_given (unique : (f.services.map Service.serviceId).Nodup) (hs : s ∈ f.enabled) :
    Gives (turn up s) ((f.fetched up positions).position s.serviceId)
      (returned s.serviceId (f.run up limit positions 0).page)
      ((f.run up limit positions 0).position s.serviceId) := by
  obtain ⟨reading, -, -, page⟩ := f.fetched_spec up positions unique
  have again : (f.fetched up positions).Reading up f.enabled
      (f.fetched up positions).position :=
    { toKept := reading.toKept
      standing := fun s hs => ⟨by rw [page]; exact .stay, (reading.standing s hs).loaded⟩ }
  rw [run_eq]
  exact ((again.merge (unique_enabled unique) limit).standing s hs).given

/-- If a page was loaded and something is asked for, something is returned. -/
theorem page_run_of_loaded (unique : (f.services.map Service.serviceId).Nodup) (asked : 1 ≤ limit)
    (some_ : (f.fetched up positions).pageOf sid ≠ []) :
    (f.run up limit positions 0).page ≠ [] := by
  obtain ⟨reading, -, -, page⟩ := f.fetched_spec up positions unique
  obtain ⟨item, tail, held⟩ := List.exists_cons_of_ne_nil some_
  obtain ⟨rounds, rfl⟩ := Nat.exists_eq_add_of_le' asked
  obtain ⟨candidate, chosen⟩ : ∃ candidate, (f.fetched up positions).candidates.argmax
      (Call.sortKey f.text) = some candidate := by
    refine Option.ne_none_iff_exists'.mp fun none_ => ?_
    have present := Call.Kept.mem_candidates held
    rw [List.argmax_eq_none.mp none_] at present
    cases present
  have step : (f.fetched up positions).round f.text up (rounds + 1) f.enabled = some
      (((f.fetched up positions).emit candidate.1 candidate.2).turnPage up (rounds + 1) f.enabled
        candidate.1) := by
    rw [Call.round, chosen, Option.map_some]
  rw [run_eq, Call.merge_succ (by simp [page]) step]
  have turned : Call.Grows ((f.fetched up positions).emit candidate.1 candidate.2)
      (((f.fetched up positions).emit candidate.1 candidate.2).turnPage up (rounds + 1) f.enabled
        candidate.1) := .turnPage
  have shown : candidate.2 ∈ ((f.fetched up positions).emit candidate.1 candidate.2).page := by
    rw [Call.emit_eq reading.plain]
    simp
  exact List.ne_nil_of_mem ((turned.trans .merge).page.subset shown)

/-- If more follows, then something was returned, or an empty page was passed. -/
theorem run_progress (unique : (f.services.map Service.serviceId).Nodup)
    (nodup : (positions.map Prod.fst).Nodup) (asked : 1 ≤ limit)
    (more : (f.run up limit positions 0).hasMore f.enabled = true) :
    (f.run up limit positions 0).page ≠ [] ∨ ∃ s ∈ f.enabled,
      turn up s (positionAt positions s.serviceId) =
        some ([], (f.fetched up positions).position s.serviceId) := by
  obtain ⟨s, hs, open_, available⟩ := (hasMore_run nodup).mp more
  obtain ⟨-, -, each, -⟩ := f.fetched_spec up positions unique
  cases each s hs with
  | ended ended stays =>
    obtain ⟨-, stuck⟩ := (run_given unique hs).of_stuck (turn_of_done (stays ▸ ended))
    rw [stuck, stays, ended] at open_
    cases open_
  | failed _ _ _ unavailable => exact absurd (grows_run.unavailable unavailable) available
  | loaded _ some_ => exact Or.inl (page_run_of_loaded unique asked some_)
  | passed passed => exact Or.inr ⟨s, hs, passed⟩

end Federation

end Relayna.Studio.FailedTaskFeeds
