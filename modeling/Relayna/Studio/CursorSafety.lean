import Relayna.Contracts.Aliases
import Relayna.Foundation.Failing
import Relayna.Foundation.Keyed
import Relayna.Studio.CursorErrors

/-!
# When a cursor does no harm

An entry that is read from a cursor may lack `skip`, which is missed once its page arrives, and its
text may be one that cannot be sent. Entries that a call makes itself have neither fault, so a call
fails in its first fetch of a service or not at all. Positions stay valid and can be written, so the
next cursor is read as the positions it was made from.
-/
namespace Relayna.Studio.CursorErrors

open Python Contracts FailedTaskFeeds Failing

variable {f : Federation} {c : Call} {service : Service} {v : Value} {sid : String}

/-! ## Entries -/

theorem valid_fresh (cursor : Option String) : validPosition (fresh cursor) = true := by
  cases cursor <;> rfl

theorem exists_dict (h : validPosition v = true) : ∃ fields, v = .dict fields := by
  cases v with
  | dict fields => exact ⟨fields, rfl⟩
  | _ => cases h

theorem get_setField_ne (v : Value) {key other : String} (ne : other ≠ key) (value : Value) :
    (setField v key value).get other = v.get other := by
  cases v with
  | dict fields => exact Fields.lookup_set_ne ne
  | _ => rfl

theorem valid_done (h : validPosition v = true) :
    validPosition (setField v "done" (.bool true)) = true := by
  obtain ⟨fields, rfl⟩ := exists_dict h
  have skip := get_setField_ne (.dict fields) (by decide : "skip" ≠ "done") (.bool true)
  have cursor := get_setField_ne (.dict fields) (by decide : "cursor" ≠ "done") (.bool true)
  rw [setField] at skip cursor ⊢
  simpa only [validPosition, skip, cursor] using h

theorem valid_skip (h : validPosition v = true) (n : Nat) :
    validPosition (setField v "skip" (.int n)) = true := by
  obtain ⟨fields, rfl⟩ := exists_dict h
  have skip : (setField (.dict fields) "skip" (.int n)).get "skip" = some (.int n) :=
    Fields.lookup_set_self
  have cursor := get_setField_ne (.dict fields) (by decide : "cursor" ≠ "skip") (.int n)
  rw [setField] at skip cursor ⊢
  simp only [validPosition, skip, cursor] at h ⊢
  rw [Bool.and_eq_true] at h
  rw [h.2, Bool.and_true]
  simp [intOf]

theorem skipNumber_done (v : Value) :
    skipNumber (setField v "done" (.bool true)) = skipNumber v := by
  rw [skipNumber, get_setField_ne v (by decide : "skip" ≠ "done"), skipNumber]

theorem skipNumber_skip (h : validPosition v = true) (n : Nat) :
    skipNumber (setField v "skip" (.int n)) = some n := by
  obtain ⟨fields, rfl⟩ := exists_dict h
  have skip : (setField (.dict fields) "skip" (.int n)).get "skip" = some (.int n) :=
    Fields.lookup_set_self
  rw [skipNumber, skip]
  rfl

/-- An entry that may stand in a cursor. -/
def Federation.Entry (f : Federation) (v : Value) : Prop :=
  validPosition v = true ∧ f.codec.Writable v

theorem entry_fresh (cursor : Option String) : f.Entry (fresh cursor) :=
  ⟨valid_fresh cursor, f.codec.writable_fresh cursor⟩

theorem Federation.Entry.advance (h : f.Entry v) (next : Option String) :
    f.Entry (advance v next) := by
  unfold CursorErrors.advance followingPosition
  cases next with
  | none => exact ⟨valid_done h.1, f.codec.writable_done h.2⟩
  | some next =>
    dsimp only
    split_ifs
    · exact entry_fresh _
    · exact ⟨valid_done h.1, f.codec.writable_done h.2⟩

theorem skipNumber_advance (h : (skipNumber v).isSome = true) (next : Option String) :
    (skipNumber (advance v next)).isSome = true := by
  unfold advance followingPosition
  cases next with
  | none => rwa [Option.getD_none, skipNumber_done]
  | some next =>
    dsimp only
    split_ifs
    · rfl
    · rwa [Option.getD_none, skipNumber_done]

/-! ## Calls -/

/-- What a call keeps. Only enabled services have pages, and only once their entries have `skip`. -/
structure Inv (f : Federation) (c : Call) : Prop where
  keys : (c.positions.map Prod.fst).Nodup
  entries : ∀ entry ∈ c.positions, f.Entry entry.2
  loaded : ∀ sid, c.pages.lookup sid ≠ none → (∃ service ∈ f.enabled, service.serviceId = sid) ∧
    ∃ v, c.positions.lookup sid = some v ∧ (skipNumber v).isSome = true
  next : ∀ sid next, c.following.lookup sid = some (some next) →
    f.codec.unsendable sid next = none

theorem Inv.entry (h : Inv f c) (sid : String) :
    f.Entry (c.entryOf sid) := by
  unfold Call.entryOf
  cases found : c.positions.lookup sid with
  | none => exact entry_fresh none
  | some v => exact h.entries _ (Fields.mem_of_lookup found)

theorem Inv.setPosition (h : Inv f c) (sid : String) (entry : f.Entry v)
    (skip : c.pages.lookup sid ≠ none → (skipNumber v).isSome = true) :
    Inv f (c.setPosition sid v) where
  keys := Fields.keys_set h.keys
  entries e he := by
    rcases Fields.mem_set he with old | rfl
    · exact h.entries e old
    · exact entry
  loaded other loaded := by
    obtain ⟨known, v', held, some_⟩ := h.loaded other loaded
    refine ⟨known, ?_⟩
    by_cases same : other = sid
    · subst same
      exact ⟨v, Fields.lookup_set_self, skip loaded⟩
    · exact ⟨v', (Fields.lookup_set_ne same).trans held, some_⟩
  next := h.next

theorem Inv.fail (h : Inv f c) (sid : String) (e : StudioFederationError) :
    Inv f (c.fail sid e) := ⟨h.keys, h.entries, h.loaded, h.next⟩

/-- The first fetch of a service, at its entry, does not fail. -/
def Federation.Safe (f : Federation) (sid : String) (v : Value) : Prop :=
  isDone v = true ∨ (f.refused sid).isSome = true ∨
    (cursorText v).bind (f.codec.unsendable sid) = none ∧
      ((skipNumber v).isSome = true ∨ ∀ p, f.up sid (cursorText v) ≠ .payload p)

theorem safe_fresh (sid : String) {cursor : Option String}
    (sent : cursor.bind (f.codec.unsendable sid) = none) : f.Safe sid (fresh cursor) := by
  refine Or.inr (Or.inr ⟨?_, Or.inl rfl⟩)
  cases cursor <;> exact sent

theorem safe_done (sid : String) (h : validPosition v = true) :
    f.Safe sid (setField v "done" (.bool true)) := by
  obtain ⟨fields, rfl⟩ := exists_dict h
  refine Or.inl ?_
  have done : (setField (.dict fields) "done" (.bool true)).get "done" = some (.bool true) :=
    Fields.lookup_set_self
  rw [isDone, done]
  rfl

theorem safe_advance (sid : String) (h : validPosition v = true) {next : Option String}
    (sent : ∀ text ∈ next, f.codec.unsendable sid text = none) :
    f.Safe sid (advance v next) := by
  unfold advance followingPosition
  cases next with
  | none => exact safe_done sid h
  | some text =>
    dsimp only
    split_ifs
    · exact safe_fresh sid (sent text rfl)
    · exact safe_done sid h

theorem safe_skip (h : validPosition v = true) (safe : f.Safe sid v) (n : Nat) :
    f.Safe sid (setField v "skip" (.int n)) := by
  have done : isDone (setField v "skip" (.int n)) = isDone v := by
    rw [isDone, get_setField_ne v (by decide), isDone]
  have text : cursorText (setField v "skip" (.int n)) = cursorText v := by
    rw [cursorText, get_setField_ne v (by decide), cursorText]
  rw [Federation.Safe, done, text, skipNumber_skip h n]
  exact safe.imp_right fun rest => rest.imp_right fun sent => ⟨sent.1, Or.inl rfl⟩

/-- No fetch of a service at its entry fails. -/
def Federation.Calm (f : Federation) (c : Call) : Prop :=
  ∀ service ∈ f.enabled, f.Safe service.serviceId (c.entryOf service.serviceId)

theorem Federation.Calm.setPosition (h : f.Calm c)
    (safe : f.Safe sid v) : f.Calm (c.setPosition sid v) := by
  intro service hs
  by_cases same : service.serviceId = sid
  · have held : (c.setPosition sid v).positions.lookup service.serviceId = some v := by
      rw [same]
      exact Fields.lookup_set_self
    rw [Call.entryOf, held, same]
    exact safe
  · have held : (c.setPosition sid v).positions.lookup service.serviceId =
        c.positions.lookup service.serviceId := Fields.lookup_set_ne same
    rw [Call.entryOf, held]
    exact h service hs

/-- What a fetch leaves as it is. -/
structure Fetched (f : Federation) (service : Service) (c c' : Call) : Prop where
  calm : f.Calm c → f.Calm c'
  others : ∀ sid ≠ service.serviceId, c'.positions.lookup sid = c.positions.lookup sid
  page : c'.page = c.page
  legacyOffset : c'.legacyOffset = c.legacyOffset

theorem Fetched.fail {c' : Call} (h : Fetched f service c c') (sid : String)
    (e : StudioFederationError) : Fetched f service c (c'.fail sid e) :=
  ⟨h.calm, h.others, h.page, h.legacyOffset⟩

theorem fetchPage_ok (h : Inv f c) (hs : service ∈ f.enabled)
    (safe : f.Safe service.serviceId (c.entryOf service.serviceId)) :
    ∃ c', f.fetchPage c service = .ok c' ∧ Inv f c' ∧ Fetched f service c c' := by
  have entry := h.entry service.serviceId
  have skips : c.pages.lookup service.serviceId ≠ none →
      (skipNumber (c.entryOf service.serviceId)).isSome = true := by
    intro loaded
    obtain ⟨-, v, held, some_⟩ := h.loaded _ loaded
    rwa [Call.entryOf, held, Option.getD_some]
  have calm : f.Calm c →
      f.Calm (c.setPosition service.serviceId (c.entryOf service.serviceId)) :=
    fun calm => calm.setPosition safe
  unfold Federation.fetchPage
  dsimp only
  generalize c.entryOf service.serviceId = position at *
  have start := h.setPosition _ entry skips
  have fetched : Fetched f service c (c.setPosition service.serviceId position) :=
    ⟨calm, fun sid ne => Fields.lookup_set_ne ne, rfl, rfl⟩
  by_cases done : isDone position = true
  · rw [if_pos done]
    exact ⟨_, rfl, start, fetched⟩
  rw [if_neg done]
  cases refused : f.refused service.serviceId with
  | some e => exact ⟨_, rfl, start.fail _ e, fetched.fail _ e⟩
  | none =>
    obtain ⟨sent, answered⟩ := (safe.resolve_left done).resolve_left (by simp [refused])
    dsimp only
    rw [sent]
    dsimp only
    cases reply : f.up service.serviceId (cursorText position) with
    | error e => exact ⟨_, rfl, start.fail _ e, fetched.fail _ e⟩
    | timeout => exact ⟨_, rfl, start.fail _ _, fetched.fail _ _⟩
    | payload p =>
      obtain ⟨skip, number⟩ := Option.isSome_iff_exists.mp
        (answered.resolve_right fun none_ => none_ p reply)
      dsimp only
      rw [number]
      dsimp only
      have loaded : Inv f ((c.setPosition service.serviceId position).load service.serviceId
          ((service.itemsOf p).drop skip) p.nextCursor) := by
        refine ⟨start.keys, start.entries, fun sid loaded => ?_, fun sid next held => ?_⟩
        · by_cases same : sid = service.serviceId
          · subst same
            exact ⟨⟨service, hs, rfl⟩, position, Fields.lookup_set_self, by rw [number]; rfl⟩
          · exact start.loaded sid fun none_ => loaded ((Fields.lookup_set_ne same).trans none_)
        · by_cases same : sid = service.serviceId
          · subst same
            have held' := Fields.lookup_set_self.symm.trans held
            exact f.sendable_next reply next (Option.some.inj held')
          · exact start.next sid next ((Fields.lookup_set_ne same).symm.trans held)
      refine ⟨_, rfl, ?_⟩
      split_ifs
      · refine ⟨loaded.setPosition _ (entry.advance _) fun _ => skipNumber_advance ?_ _, ?_⟩
        · rw [number]
          rfl
        · refine ⟨fun calm => ?_, fun sid ne => ?_, rfl, rfl⟩
          · have calm' : f.Calm ((c.setPosition service.serviceId position).load service.serviceId
                ((service.itemsOf p).drop skip) p.nextCursor) := fetched.calm calm
            exact calm'.setPosition (safe_advance _ entry.1 (f.sendable_next reply))
          · exact (Fields.lookup_set_ne ne).trans (fetched.others sid ne)
      · exact ⟨loaded, fetched.calm, fetched.others, rfl, rfl⟩

theorem fetchPage_error (harms : ¬f.Safe service.serviceId (c.entryOf service.serviceId)) :
    ∃ e, f.fetchPage c service = .error e := by
  unfold Federation.fetchPage
  dsimp only
  generalize c.entryOf service.serviceId = position at *
  simp only [Federation.Safe, not_or, not_and_or] at harms
  obtain ⟨live, asked, harm⟩ := harms
  rw [if_neg live, Option.not_isSome_iff_eq_none.mp asked]
  dsimp only
  cases sent : (cursorText position).bind (f.codec.unsendable service.serviceId) with
  | some e => exact ⟨e, rfl⟩
  | none =>
    obtain ⟨missing, answers⟩ := harm.resolve_left (not_not.mpr sent)
    push Not at answers
    obtain ⟨p, reply⟩ := answers
    dsimp only
    rw [reply]
    dsimp only
    rw [Option.not_isSome_iff_eq_none.mp missing]
    exact ⟨_, rfl⟩

/-- The first fetch of every service. -/
theorem fetchAll_ok {l : List Service} (distinct : (l.map Service.serviceId).Nodup)
    (inside : ∀ service ∈ l, service ∈ f.enabled) (h : Inv f c)
    (safe : ∀ service ∈ l, f.Safe service.serviceId (c.entryOf service.serviceId)) :
    ∃ c', l.foldlM f.fetchPage c = .ok c' ∧ Inv f c' ∧ (f.Calm c → f.Calm c') ∧
      c'.page = c.page ∧ c'.legacyOffset = c.legacyOffset := by
  induction l generalizing c with
  | nil => exact ⟨c, rfl, h, id, rfl, rfl⟩
  | cons service l ih =>
    rw [List.map_cons, List.nodup_cons] at distinct
    obtain ⟨c', done, h', fetched⟩ := fetchPage_ok h (inside _ List.mem_cons_self)
      (safe _ List.mem_cons_self)
    have later : ∀ other ∈ l, f.Safe other.serviceId (c'.entryOf other.serviceId) := by
      intro other ho
      have ne : other.serviceId ≠ service.serviceId := fun same =>
        distinct.1 (List.mem_map.mpr ⟨other, ho, same⟩)
      rw [Call.entryOf, fetched.others _ ne]
      exact safe other (List.mem_cons_of_mem _ ho)
    obtain ⟨c'', rest, h'', calm, page, offset⟩ := ih distinct.2
      (fun other ho => inside other (List.mem_cons_of_mem _ ho)) h' later
    refine ⟨c'', ?_, h'', fun old => calm (fetched.calm old), page.trans fetched.page,
      offset.trans fetched.legacyOffset⟩
    rw [List.foldlM_cons, done]
    exact rest

theorem fetchAll_error {l : List Service} (distinct : (l.map Service.serviceId).Nodup)
    (inside : ∀ service ∈ l, service ∈ f.enabled) (h : Inv f c)
    (harms : ∃ service ∈ l, ¬f.Safe service.serviceId (c.entryOf service.serviceId)) :
    ∃ e, l.foldlM f.fetchPage c = .error e := by
  induction l generalizing c with
  | nil =>
    obtain ⟨_, hs, -⟩ := harms
    cases hs
  | cons service l ih =>
    rw [List.map_cons, List.nodup_cons] at distinct
    rw [List.foldlM_cons]
    by_cases safe : f.Safe service.serviceId (c.entryOf service.serviceId)
    · obtain ⟨c', done, h', fetched⟩ := fetchPage_ok h (inside _ List.mem_cons_self) safe
      rw [done]
      refine ih distinct.2 (fun other ho => inside other (List.mem_cons_of_mem _ ho)) h' ?_
      obtain ⟨other, ho, harm⟩ := harms
      rcases List.mem_cons.mp ho with rfl | ho
      · exact absurd safe harm
      · refine ⟨other, ho, ?_⟩
        have ne : other.serviceId ≠ service.serviceId := fun same =>
          distinct.1 (List.mem_map.mpr ⟨other, ho, same⟩)
        rwa [Call.entryOf, fetched.others _ ne]
    · obtain ⟨e, failed⟩ := fetchPage_error safe
      rw [failed]
      exact ⟨e, rfl⟩

/-! ## The loop -/

/-- What is left to do before a page is full. -/
def Call.left (c : Call) (limit : Nat) : Nat := c.legacyOffset + (limit - c.page.length)

theorem emit_ok (h : Inv f c) (loaded : c.pages.lookup sid ≠ none) (item : Item) :
    ∃ c', c.emit sid item = .ok c' ∧ Inv f c' ∧ (f.Calm c → f.Calm c') ∧
      c'.pages.lookup sid ≠ none ∧
      ∀ limit, c.page.length < limit → c'.left limit + 1 = c.left limit := by
  obtain ⟨known, v, held, some_⟩ := h.loaded sid loaded
  obtain ⟨skip, number⟩ := Option.isSome_iff_exists.mp some_
  have entry : f.Entry v := h.entries _ (Fields.mem_of_lookup held)
  have shorter : Inv f { c with pages := Fields.set c.pages sid (c.pageOf sid).tail } := by
    refine ⟨h.keys, h.entries, fun other present => ?_, h.next⟩
    by_cases same : other = sid
    · subst same
      exact h.loaded other loaded
    · exact h.loaded other fun none_ => present ((Fields.lookup_set_ne same).trans none_)
  have counted : f.Entry (setField v "skip" (.int (skip + 1 : Nat))) :=
    ⟨valid_skip entry.1 (skip + 1), f.codec.writable_skip entry.2 (skip + 1)⟩
  have next := shorter.setPosition sid counted fun _ => by rw [skipNumber_skip entry.1]; rfl
  have calm : f.Calm c →
      f.Calm (c.setPosition sid (setField v "skip" (.int (skip + 1 : Nat)))) := by
    intro old
    obtain ⟨service, hs, rfl⟩ := known
    have safe := old service hs
    rw [Call.entryOf, held, Option.getD_some] at safe
    exact old.setPosition (safe_skip entry.1 safe _)
  have kept : (Fields.set c.pages sid (c.pageOf sid).tail).lookup sid ≠ none := by
    rw [Fields.lookup_set_self]
    exact Option.some_ne_none _
  rw [Call.emit, held, Option.bind_some, number]
  refine ⟨_, rfl, ?_⟩
  split_ifs with old
  · refine ⟨⟨next.keys, next.entries, next.loaded, next.next⟩, calm, kept, fun limit _ => ?_⟩
    have positive : 0 < c.legacyOffset := Nat.pos_of_ne_zero old
    simp only [Call.left, Call.setPosition]
    omega
  · refine ⟨⟨next.keys, next.entries, next.loaded, next.next⟩, calm, kept, fun limit short => ?_⟩
    simp only [Call.left, Call.setPosition, List.length_append, List.length_singleton]
    omega

theorem turnPage_ok (h : Inv f c) (loaded : c.pages.lookup sid ≠ none) (limit : Nat) :
    ∃ c', f.turnPage limit c sid = .ok c' ∧ Inv f c' ∧ (f.Calm c → f.Calm c') ∧
      c'.page = c.page ∧ c'.legacyOffset = c.legacyOffset := by
  obtain ⟨⟨service, hs, rfl⟩, v, held, some_⟩ := h.loaded sid loaded
  have entry := h.entry service.serviceId
  have here : c.entryOf service.serviceId = v := by rw [Call.entryOf, held, Option.getD_some]
  unfold Federation.turnPage
  split_ifs with empty
  · rw [here] at entry ⊢
    dsimp only
    cases hnext : c.following.lookup service.serviceId with
    | none =>
      rw [Option.getD_none, followingPosition]
      refine ⟨_, rfl, h.setPosition _ ⟨valid_done entry.1, f.codec.writable_done entry.2⟩
        fun _ => ?_, fun calm => calm.setPosition (safe_done _ entry.1), rfl, rfl⟩
      rwa [skipNumber_done]
    | some next =>
      rw [Option.getD_some]
      cases follows : followingPosition v next with
      | none =>
        refine ⟨_, rfl, h.setPosition _ ⟨valid_done entry.1, f.codec.writable_done entry.2⟩
          fun _ => ?_, fun calm => calm.setPosition (safe_done _ entry.1), rfl, rfl⟩
        rwa [skipNumber_done]
      | some w =>
        obtain ⟨text, rfl, rfl⟩ : ∃ text, next = some text ∧ w = fresh (some text) := by
          cases next with
          | none => cases follows
          | some text =>
            rw [followingPosition] at follows
            split_ifs at follows
            exact ⟨text, rfl, (Option.some.inj follows).symm⟩
        have h' := h.setPosition service.serviceId (entry_fresh (some text)) fun _ => rfl
        have safe : f.Safe service.serviceId (fresh (some text)) :=
          safe_fresh _ (h.next _ _ hnext)
        dsimp only
        split_ifs with short
        · have found : f.enabled.find? (·.serviceId = service.serviceId) = some service := by
            have distinct : (f.enabled.map Service.serviceId).Nodup :=
              (List.Sublist.map _ List.filter_sublist).nodup f.distinct
            exact Keyed.get?_of_mem distinct hs
          have position : (c.setPosition service.serviceId (fresh (some text))).entryOf
              service.serviceId = fresh (some text) := by
            rw [Call.entryOf, Call.setPosition]
            exact congrArg (Option.getD · _) Fields.lookup_set_self
          rw [found]
          obtain ⟨c', done, h'', fetched⟩ := fetchPage_ok h' hs (by rwa [position])
          exact ⟨c', done, h'', fun calm => fetched.calm (calm.setPosition safe), fetched.page,
            fetched.legacyOffset⟩
        · exact ⟨_, rfl, h', fun calm => calm.setPosition safe, rfl, rfl⟩
  · exact ⟨_, rfl, h, id, rfl, rfl⟩

theorem round_ok (h : Inv f c) (limit : Nat) :
    ∃ r, f.round limit c = .ok r ∧ (r = none → c.candidates = []) ∧
      ∀ c' ∈ r, Inv f c' ∧ (f.Calm c → f.Calm c') ∧
        (c.page.length < limit → c'.left limit + 1 = c.left limit) := by
  unfold Federation.round
  cases best : c.candidates.argmax (FailedTaskFeeds.Call.sortKey f.text) with
  | none => exact ⟨none, rfl, fun _ => List.argmax_eq_none.mp best, fun _ h => by cases h⟩
  | some candidate =>
    have loaded : c.pages.lookup candidate.1 ≠ none := by
      obtain ⟨entry, hentry, first⟩ := List.mem_filterMap.mp (List.argmax_mem best)
      obtain ⟨item, -, rfl⟩ := Option.map_eq_some_iff.mp first
      intro none_
      have := List.lookup_eq_none_iff.mp none_ entry hentry
      simp at this
    obtain ⟨c', emitted, h', calm, loaded', less⟩ := emit_ok h loaded candidate.2
    obtain ⟨c'', turned, h'', calm', page, offset⟩ := turnPage_ok h' loaded' limit
    refine ⟨some c'', bind_ok.mpr ⟨c', emitted, bind_ok.mpr ⟨c'', turned, rfl⟩⟩,
      (fun none_ => by cases none_), ?_⟩
    rintro _ ⟨⟩
    refine ⟨h'', fun old => calm' (calm old), fun short => ?_⟩
    rw [← less limit short, Call.left, page, offset, Call.left]

/-- The loop ends with a full page or with no more items. -/
theorem merge_ok (h : Inv f c) (limit rounds : Nat) (enough : c.left limit ≤ rounds) :
    ∃ c', f.merge limit rounds c = .ok c' ∧ Inv f c' ∧ (f.Calm c → f.Calm c') ∧
      (limit ≤ c'.page.length ∨ c'.candidates = []) := by
  induction rounds generalizing c with
  | zero =>
    refine ⟨c, rfl, h, id, Or.inl ?_⟩
    rw [Call.left] at enough
    omega
  | succ rounds ih =>
    unfold Federation.merge
    split_ifs with short
    · obtain ⟨r, done, ended, next⟩ := round_ok h limit
      cases r with
      | none => exact ⟨c, bind_ok.mpr ⟨none, done, rfl⟩, h, id, Or.inr (ended rfl)⟩
      | some c' =>
        obtain ⟨h', calm, less⟩ := next c' rfl
        have := less short
        obtain ⟨c'', rest, h'', calm', full⟩ := ih h' (by omega)
        exact ⟨c'', bind_ok.mpr ⟨some c', done, rest⟩, h'', fun old => calm' (calm old), full⟩
    · exact ⟨c, rfl, h, id, Or.inl (not_lt.mp short)⟩

end Relayna.Studio.CursorErrors
