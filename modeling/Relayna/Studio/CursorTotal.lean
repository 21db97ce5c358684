import Relayna.Foundation.Texts
import Relayna.Studio.CursorSafety

/-!
# Every cursor has an answer

`list_failed_tasks` returns a page or refuses the cursor, whatever its text, unless the text does
harm: by values that are too deep for `json`, or by an entry of a service whose first fetch fails.
The cursor of an answer never does.
-/
namespace Relayna.Studio.CursorErrors

open Python Contracts FailedTaskFeeds Failing

variable {f : Federation} {c : Call} {positions : Fields Value} {text : String}

/-- What the text of a cursor may be. -/
structure Harmless (f : Federation) (text : String) : Prop where
  loads : f.codec.loads text ≠ .error .recursionError
  offset : ∀ decoded, f.codec.loads text = .ok decoded →
    (decoded.get "version").any isTwo = false → f.codec.loadsUtf8 text ≠ .error .recursionError
  entries : ∀ decoded positions, f.codec.loads text = .ok decoded →
    (decoded.get "version").any isTwo = true → decoded.get "positions" = some (.dict positions) →
      (positions.all fun entry => validPosition entry.2) = true →
        ∀ service ∈ f.enabled, ∀ v ∈ positions.lookup service.serviceId,
          f.Safe service.serviceId v

/-- The cursor is refused, or there is a page. The page is full or ends all feeds, and its cursor
is read as the positions it was made from and has a page in turn. -/
def Total (f : Federation) (cursor : Option String) (limit : Nat) : Prop :=
  f.listFailedTasks cursor limit = .error (.federation invalidCursor) ∨
    ∃ positions offset c, f.codec.decodeCursor cursor = .ok (positions, offset) ∧
      f.run limit positions offset = .ok c ∧
      f.listFailedTasks cursor limit = .ok (f.answer c) ∧
      (limit ≤ c.page.length ∨ c.candidates = []) ∧
      ∀ next ∈ (f.answer c).nextCursor, f.codec.decodeCursor (some next) = .ok (c.positions, 0) ∧
        ∀ limit', ∃ answer, f.listFailedTasks (some next) limit' = .ok answer

/-! ## Runs -/

theorem listFailedTasks_decoded {cursor : Option String} {offset : Nat} (limit : Nat)
    (decoded : f.codec.decodeCursor cursor = .ok (positions, offset)) :
    f.listFailedTasks cursor limit =
      (f.run limit positions offset).mapError .escaped >>= fun c => .ok (f.answer c) := by
  rw [Federation.listFailedTasks, decoded]
  rfl

theorem listFailedTasks_ok {cursor : Option String} {offset limit : Nat}
    (decoded : f.codec.decodeCursor cursor = .ok (positions, offset))
    (ran : f.run limit positions offset = .ok c) :
    f.listFailedTasks cursor limit = .ok (f.answer c) := by
  rw [listFailedTasks_decoded limit decoded, ran]
  rfl

theorem nodup_enabled (f : Federation) : (f.enabled.map Service.serviceId).Nodup :=
  (List.Sublist.map _ List.filter_sublist).nodup f.distinct

theorem inv_start (keys : (positions.map Prod.fst).Nodup)
    (entries : ∀ entry ∈ positions, f.Entry entry.2) (offset : Nat) :
    Inv f { positions, legacyOffset := offset } where
  keys := keys
  entries := entries
  loaded _ loaded := absurd rfl loaded
  next _ _ held := by cases held

theorem run_ok (offset : Nat) (keys : (positions.map Prod.fst).Nodup)
    (entries : ∀ entry ∈ positions, f.Entry entry.2)
    (calm : f.Calm { positions, legacyOffset := offset }) (limit : Nat) :
    ∃ c, f.run limit positions offset = .ok c ∧ Inv f c ∧ f.Calm c ∧
      (limit ≤ c.page.length ∨ c.candidates = []) := by
  obtain ⟨c, fetched, h, calm', page, kept⟩ :=
    fetchAll_ok (nodup_enabled f) (fun _ hs => hs) (inv_start keys entries offset) calm
  have left : c.left limit ≤ offset + limit := by
    rw [Call.left, page, kept]
    exact Nat.add_le_add_left (Nat.sub_le ..) _
  obtain ⟨c', merged, h', calm'', full⟩ := merge_ok h limit _ left
  exact ⟨c', bind_ok.mpr ⟨c, fetched, merged⟩, h', calm'' (calm' calm), full⟩

theorem run_error (offset limit : Nat) (keys : (positions.map Prod.fst).Nodup)
    (entries : ∀ entry ∈ positions, f.Entry entry.2)
    (harms : ¬f.Calm { positions, legacyOffset := offset }) :
    ∃ e, f.run limit positions offset = .error e := by
  simp only [Federation.Calm, not_forall] at harms
  obtain ⟨service, hs, harm⟩ := harms
  obtain ⟨e, failed⟩ := fetchAll_error (nodup_enabled f) (fun _ hs => hs)
    (inv_start keys entries offset) ⟨service, hs, harm⟩
  refine ⟨e, ?_⟩
  rw [Federation.run, failed]
  rfl

/-- The positions of a cursor are read as they were written. -/
theorem decode_next (h : Inv f c) {next : String} (made : next ∈ (f.answer c).nextCursor) :
    f.codec.decodeCursor (some next) = .ok (c.positions, 0) := by
  simp only [Federation.answer, Option.mem_def] at made
  split_ifs at made
  cases made
  have valid : (c.positions.all fun entry => validPosition entry.2) = true :=
    List.all_eq_true.mpr fun entry he => (h.entries entry he).1
  have version : ((cursorValue c.positions).get "version").any isTwo = true := rfl
  have held : (cursorValue c.positions).get "positions" = some (.dict c.positions) := rfl
  have loads := f.codec.loads_encode h.keys fun entry he => (h.entries entry he).2
  have text : (some (f.codec.encode (cursorValue c.positions))).filter (· ≠ "") =
      some (f.codec.encode (cursorValue c.positions)) := by
    rw [Option.filter_some, if_pos (decide_eq_true (f.codec.encode_ne _))]
  simp only [JsonCodec.decodeCursor, text, loads, version, if_true, held, valid]

theorem total_of_run {cursor : Option String} {offset : Nat}
    (decoded : f.codec.decodeCursor cursor = .ok (positions, offset))
    (keys : (positions.map Prod.fst).Nodup) (entries : ∀ entry ∈ positions, f.Entry entry.2)
    (calm : f.Calm { positions, legacyOffset := offset }) (limit : Nat) :
    Total f cursor limit := by
  obtain ⟨c, ran, h, calm', full⟩ := run_ok offset keys entries calm limit
  refine Or.inr ⟨positions, offset, c, decoded, ran, listFailedTasks_ok decoded ran, full,
    fun next made => ⟨decode_next h made, fun limit' => ?_⟩⟩
  obtain ⟨c', ran', -⟩ := run_ok 0 h.keys h.entries calm' limit'
  exact ⟨_, listFailedTasks_ok (decode_next h made) ran'⟩

/-- A call without a cursor starts at fresh entries. -/
theorem calm_nil (f : Federation) (offset : Nat) :
    f.Calm { positions := [], legacyOffset := offset } :=
  fun _ _ => safe_fresh _ rfl

theorem total_of_offset {cursor : Option String} (offset : Nat)
    (decoded : f.codec.decodeCursor cursor = .ok ([], offset)) (limit : Nat) :
    Total f cursor limit :=
  total_of_run decoded List.nodup_nil (fun _ h => absurd h List.not_mem_nil) (calm_nil f offset)
    limit

/-! ## Cursors -/

theorem total_of_invalid {cursor : Option String}
    (decoded : f.codec.decodeCursor cursor = .error (.federation invalidCursor)) (limit : Nat) :
    Total f cursor limit := by
  refine Or.inl ?_
  rw [Federation.listFailedTasks, decoded]
  rfl

theorem not_total {cursor : Option String} {limit : Nat} {e : Escape}
    (escaped : f.listFailedTasks cursor limit = .error (.escaped e)) : ¬Total f cursor limit := by
  rintro (refused | ⟨_, _, _, _, _, answered, _⟩)
  · rw [escaped] at refused
    cases refused
  · rw [escaped] at answered
    cases answered

theorem escaped_of_decode {cursor : Option String} (e : Escape)
    (decoded : f.codec.decodeCursor cursor = .error (.escaped e)) (limit : Nat) :
    f.listFailedTasks cursor limit = .error (.escaped e) := by
  rw [Federation.listFailedTasks, decoded]
  rfl

/-- What is read of an older cursor. -/
theorem decodeFailedTaskCursor_cases (codec : JsonCodec) (text : String) :
    codec.decodeFailedTaskCursor text = .error (.federation invalidCursor) ∨
      (∃ offset, codec.decodeFailedTaskCursor text = .ok offset) ∨
      codec.loadsUtf8 text = .error .recursionError := by
  unfold JsonCodec.decodeFailedTaskCursor
  cases codec.loadsUtf8 text with
  | error e =>
    cases e with
    | valueError => exact Or.inl rfl
    | recursionError => exact Or.inr (Or.inr rfl)
  | ok payload =>
    dsimp only
    split
    · split_ifs
      · exact Or.inl rfl
      · exact Or.inr (Or.inl ⟨_, rfl⟩)
    · exact Or.inl rfl

section Text

variable (nonempty : text ≠ "")

include nonempty

theorem decodeCursor_error {e : LoadsError} (loads : f.codec.loads text = .error e) :
    f.codec.decodeCursor (some text) = .error e.raised := by
  simp only [JsonCodec.decodeCursor, Option.filter_some, decide_eq_true nonempty, if_true, loads]

theorem decodeCursor_older {decoded : Value} (loads : f.codec.loads text = .ok decoded)
    (older : (decoded.get "version").any isTwo = false) :
    f.codec.decodeCursor (some text) = (f.codec.decodeFailedTaskCursor text).map ([], ·) := by
  simp only [JsonCodec.decodeCursor, Option.filter_some, decide_eq_true nonempty, if_true, loads,
    older, Bool.false_eq_true, if_false]

theorem decodeCursor_valid {decoded : Value} (loads : f.codec.loads text = .ok decoded)
    (version : (decoded.get "version").any isTwo = true)
    (held : decoded.get "positions" = some (.dict positions))
    (valid : (positions.all fun entry => validPosition entry.2) = true) :
    f.codec.decodeCursor (some text) = .ok (positions, 0) := by
  simp only [JsonCodec.decodeCursor, Option.filter_some, decide_eq_true nonempty, if_true, loads,
    version, held, valid]

theorem decodeCursor_invalid {decoded : Value} (loads : f.codec.loads text = .ok decoded)
    (version : (decoded.get "version").any isTwo = true)
    (invalid : ∀ positions, decoded.get "positions" = some (.dict positions) →
      (positions.all fun entry => validPosition entry.2) = false) :
    f.codec.decodeCursor (some text) = .error (.federation invalidCursor) := by
  simp only [JsonCodec.decodeCursor, Option.filter_some, decide_eq_true nonempty, if_true, loads,
    version]
  split
  · next positions held => rw [invalid positions held, if_neg Bool.false_ne_true]
  · rfl

theorem total_of_harmless (h : Harmless f text) (limit : Nat) : Total f (some text) limit := by
  cases loads : f.codec.loads text with
  | error e =>
    cases e with
    | valueError => exact total_of_invalid (decodeCursor_error nonempty loads) limit
    | recursionError => exact absurd loads h.loads
  | ok decoded =>
    cases version : (decoded.get "version").any isTwo with
    | false =>
      have older := decodeCursor_older nonempty loads version
      rcases decodeFailedTaskCursor_cases f.codec text with refused | ⟨offset, read⟩ | deep
      · exact total_of_invalid (by rw [older, refused]; rfl) limit
      · exact total_of_offset offset (by rw [older, read]; rfl) limit
      · exact absurd deep (h.offset decoded loads version)
    | true =>
      by_cases valid : ∃ positions, decoded.get "positions" = some (.dict positions) ∧
          (positions.all fun entry => validPosition entry.2) = true
      · obtain ⟨positions, held, valid⟩ := valid
        obtain ⟨keys, writable⟩ := f.codec.writable_read loads held
        refine total_of_run (decodeCursor_valid nonempty loads version held valid) keys
          (fun entry he => ⟨List.all_eq_true.mp valid entry he, writable entry he⟩) ?_ limit
        intro service hs
        rw [Call.entryOf]
        cases found : positions.lookup service.serviceId with
        | none => exact safe_fresh _ rfl
        | some v => exact h.entries decoded positions loads version held valid service hs v found
      · refine total_of_invalid (decodeCursor_invalid nonempty loads version ?_) limit
        intro positions held
        exact Bool.eq_false_iff.mpr fun all => valid ⟨positions, held, all⟩

theorem harmless_of_total {limit : Nat} (h : Total f (some text) limit) : Harmless f text where
  loads deep := not_total (escaped_of_decode _ (decodeCursor_error nonempty deep) limit) h
  offset decoded loads older deep := by
    refine not_total (escaped_of_decode .recursionError ?_ limit) h
    rw [decodeCursor_older nonempty loads older, JsonCodec.decodeFailedTaskCursor, deep]
    rfl
  entries decoded positions loads version held valid service hs v found := by
    by_contra harm
    obtain ⟨keys, writable⟩ := f.codec.writable_read loads held
    obtain ⟨e, failed⟩ := run_error 0 limit keys
      (fun entry he => ⟨List.all_eq_true.mp valid entry he, writable entry he⟩) fun calm => harm (by
        have safe := calm service hs
        rwa [Call.entryOf, found, Option.getD_some] at safe)
    have escaped := listFailedTasks_decoded limit
      (decodeCursor_valid nonempty loads version held valid)
    rw [failed] at escaped
    exact not_total escaped h

end Text

/-- A call returns a page or refuses its cursor if and only if the text of the cursor, where there
is one, does no harm. -/
theorem list_failed_tasks_total_iff (f : Federation) (cursor : Option String) (limit : Nat) :
    Total f cursor limit ↔ ∀ text ∈ cursor, text ≠ "" → Harmless f text := by
  constructor
  · rintro h text ⟨⟩ nonempty
    exact harmless_of_total nonempty h
  · intro h
    cases cursor with
    | none => exact total_of_offset 0 rfl limit
    | some text =>
      by_cases empty : text = ""
      · subst empty
        exact total_of_offset 0 rfl limit
      · exact total_of_harmless empty (h text rfl empty) limit

/-! ## A cursor that was made by hand -/

/-- The services of a cursor are different. -/
def keyed (v : Value) : Bool :=
  match v.get "positions" with
  | some (.dict positions) => (positions.map Prod.fst).Nodup
  | _ => true

section Table

variable {table : List (Value × String)} {text : String} {decoded : Value}

noncomputable def tableLoads (table : List (Value × String)) (text : String) :
    Except LoadsError Value :=
  match (Texts.read table text).filter keyed with
  | some v => .ok v
  | none => .error .valueError

theorem tableLoads_keyed (loads : tableLoads table text = .ok decoded)
    (held : decoded.get "positions" = some (.dict positions)) :
    (positions.map Prod.fst).Nodup := by
  unfold tableLoads at loads
  split at loads
  · next v read =>
    obtain rfl := Except.ok.inj loads
    have keyed_ := (Option.filter_eq_some_iff.mp read).2
    rw [keyed, held] at keyed_
    exact of_decide_eq_true keyed_
  · cases loads

theorem tableLoads_write (reversible : Texts.Reversible table)
    (keys : (positions.map Prod.fst).Nodup) :
    tableLoads table (Texts.write table (cursorValue positions)) = .ok (cursorValue positions) := by
  have keyed_ : keyed (cursorValue positions) = true := decide_eq_true keys
  rw [tableLoads, Texts.read_write reversible, Option.filter_some, if_pos keyed_]

/-- `json` and `base64` on the cursors of a table; the others have texts of their own. -/
noncomputable def tableCodec (reversible : Texts.Reversible table) : JsonCodec where
  encode := Texts.write table
  loads := tableLoads table
  loadsUtf8 := tableLoads table
  unsendable _ _ := none
  Writable _ := True
  writable_read loads held := ⟨tableLoads_keyed loads held, fun _ _ => trivial⟩
  writable_fresh _ := trivial
  writable_skip _ _ := trivial
  writable_done _ := trivial
  loads_encode keys _ := tableLoads_write reversible keys
  encode_ne _ := Texts.write_ne reversible _

end Table

/-- The positions `{"svc": {}}`. -/
def handMade : String := "eyJ2ZXJzaW9uIjoyLCJwb3NpdGlvbnMiOnsic3ZjIjp7fX19"

theorem handMade_reversible :
    Texts.Reversible [(cursorValue [("svc", .dict [])], handMade)] where
  texts := List.nodup_singleton _
  apart := by decide

/-- One service, without failed tasks. -/
noncomputable def emptyService : Federation where
  text := plainText
  codec := tableCodec handMade_reversible
  services := [{ serviceId := "svc", name := "Service" }]
  distinct := List.nodup_singleton "svc"
  refused _ := none
  up _ _ := .payload { items := [], nextCursor := none }
  sendable_next _ _ _ := rfl

theorem missing_skip_escapes :
    emptyService.listFailedTasks (some handMade) 20 = .error (.escaped .keyError) ∧
      ¬Total emptyService (some handMade) 20 := by
  have loads : emptyService.codec.loads handMade = .ok (cursorValue [("svc", .dict [])]) := rfl
  have decoded := decodeCursor_valid (by decide) loads rfl rfl rfl
  have failed : emptyService.run 20 [("svc", .dict [])] 0 = .error .keyError := rfl
  have escaped := listFailedTasks_decoded 20 decoded
  rw [failed] at escaped
  exact ⟨escaped, not_total escaped⟩

end Relayna.Studio.CursorErrors
