import Relayna.Dlq.RecordListing

/-!
# A listing of failed tasks while records are added

A new record takes its place in the sorted set by its time. The records above the cursor come to
`head`, which is the page only when the cursor is not found to the end.
-/
namespace Relayna.Dlq

open Chunks Pages Transition

def failedListing (f : FailedTaskFilters) (limit : Int) (cursor : Option String) :
    Listing FailedRecord FailedScan where
  reader := f.reader (pageSize limit) cursor
  ids s := s.failedIds f
  load := RecordStore.failedRecord
  start _ := 0
  first := ⟨cursor.isNone, [], []⟩
  key r := r.dlqId
  accept := f.accepts

/-- What the page would be made of. -/
def FailedScan.kept (scan : FailedScan) : List FailedRecord :=
  if scan.found then scan.items else scan.head

section Failed

variable {f : FailedTaskFilters} {limit : Int} {cursor : Option String} {s₀ s : RecordStore}

theorem failedListing_stable : (failedListing f limit cursor).Stable where
  nodup s := s.index.nodup_revRange f.window
  named s id r h := by
    obtain ⟨stored, found, rfl⟩ := Option.map_eq_some_iff.mp h
    exact s.named id stored found
  sub s r fresh := (SortedSet.revRange_add fresh.2.1 r.failedScore f.window).map Prod.fst
  load s r fresh id old := by
    obtain ⟨e, he, rfl⟩ := List.mem_map.mp old
    have ne : e.1 ≠ r.dlqId := fun same =>
      fresh.2.1 (same ▸ List.mem_map_of_mem (SortedSet.mem_revRange.mp he).1)
    exact congrArg (Option.map StoredRecord.toFailedRecord) (Function.update_of_ne ne _ _)

/-- Once the cursor is found the scan is that of `list_records`. -/
theorem take_found {size : Nat} {load : String → Option FailedRecord} {keys : List String}
    {head items : List FailedRecord} :
    (f.reader size cursor).take load keys ⟨true, head, items⟩ = ⟨true, head,
      (collector f.accepts size (chunkSize size) (chunkSize_pos size)).take load keys items⟩ := by
  unfold Reader.take
  induction keys generalizing items with
  | nil => rfl
  | cons k keys ih =>
    rw [List.map_cons, foldUntil, foldUntil]
    have step : (f.reader size cursor).step (k, load k) ⟨true, head, items⟩ = ⟨true, head,
        (collector f.accepts size (chunkSize size) (chunkSize_pos size)).step (k, load k)
          items⟩ := by
      cases here : (load k).filter f.accepts <;>
        simp [FailedTaskFilters.reader, FailedTaskFilters.step, collector, here]
    rw [step]
    split
    · next full => rw [if_pos (by exact full)]
    · next unfilled =>
      rw [if_neg (by exact unfilled)]
      exact ih

theorem take_take_append {α : Type} (n : Nat) (l k : List α) :
    (l.take n ++ k).take n = (l ++ k).take n := by
  by_cases fits : l.length ≤ n
  · rw [List.take_of_length_le fits]
  · rw [List.take_append_of_le_length (by rw [List.length_take]; omega),
      List.take_append_of_le_length (by omega), List.take_take, Nat.min_self]

/-- As long as the cursor is not met, what matches comes to `head` until that is longer than a
page. -/
theorem take_unfound {size : Nat} {load : String → Option FailedRecord} {keys : List String}
    {head : List FailedRecord} (absent : ∀ c ∈ keys, cursor ≠ some c)
    (room : head.length ≤ size + 1) :
    (f.reader size cursor).take load keys ⟨false, head, []⟩ = ⟨false,
      (head ++ keys.filterMap (accepted f.accepts load)).take (size + 1), []⟩ := by
  unfold Reader.take
  induction keys generalizing head with
  | nil => simp [foldUntil, List.take_of_length_le room]
  | cons k keys ih =>
    have later : ∀ c ∈ keys, cursor ≠ some c := fun c hc => absent c (List.mem_cons_of_mem k hc)
    have other : (some k = cursor) = False := eq_false fun e => absent k List.mem_cons_self e.symm
    rw [List.map_cons, foldUntil]
    cases here : accepted f.accepts load k with
    | none =>
      have step : (f.reader size cursor).step (k, load k) ⟨false, head, []⟩ =
          ⟨false, head, []⟩ := by
        unfold accepted at here
        simp [FailedTaskFilters.reader, FailedTaskFilters.step, here, other]
      rw [step, if_neg (by simp [FailedTaskFilters.reader]), List.filterMap_cons_none here]
      exact ih later room
    | some r =>
      have step : (f.reader size cursor).step (k, load k) ⟨false, head, []⟩ =
          ⟨false, (head ++ [r]).take (size + 1), []⟩ := by
        unfold accepted at here
        simp only [FailedTaskFilters.reader, FailedTaskFilters.step, here, other, decide_false,
          Bool.false_eq_true, if_false]
        split
        · rw [List.take_of_length_le (by simp; omega)]
        · rw [List.take_append_of_le_length (by omega), List.take_of_length_le room]
      have assoc : head ++ r :: keys.filterMap (accepted f.accepts load) =
          head ++ [r] ++ keys.filterMap (accepted f.accepts load) := List.append_cons _ _ _
      rw [step, if_neg (by simp [FailedTaskFilters.reader]), List.filterMap_cons_some here, assoc,
        ← take_take_append (size + 1) (head ++ [r])]
      exact ih later (List.length_take_le (size + 1) _)

/-- The scan begins when the cursor has been met. -/
theorem take_skips {size : Nat} {load : String → Option FailedRecord} {above below : List String}
    {c : String} {head : List FailedRecord} (absent : c ∉ above) : ∃ head',
      (f.reader size (some c)).take load (above ++ c :: below) ⟨false, head, []⟩ =
        (f.reader size (some c)).take load below ⟨true, head', []⟩ := by
  unfold Reader.take
  induction above generalizing head with
  | nil =>
    refine ⟨((f.reader size (some c)).step (c, load c) ⟨false, head, []⟩).head, ?_⟩
    rw [List.nil_append, List.map_cons, foldUntil, if_neg (by
      simp [FailedTaskFilters.reader, FailedTaskFilters.step])]
    simp only [FailedTaskFilters.reader, FailedTaskFilters.step, decide_true, Bool.false_eq_true,
      if_false]
  | cons k above ih =>
    rw [List.mem_cons, not_or] at absent
    have other : (some k = some c) = False := by simpa using Ne.symm absent.1
    obtain ⟨head', rest⟩ := @ih ((f.reader size (some c)).step (k, load k)
      ⟨false, head, []⟩).head absent.2
    refine ⟨head', ?_⟩
    rw [List.cons_append, List.map_cons, foldUntil, if_neg (by
      simp [FailedTaskFilters.reader, FailedTaskFilters.step]), ← rest]
    simp only [FailedTaskFilters.reader, FailedTaskFilters.step, other, decide_false,
      Bool.false_eq_true, if_false]

def idsOf (records : List FailedRecord) : List String := records.map FailedRecord.dlqId

/-- When a chunk is taken, all of what the page would be made of still stands above the offset, or
the page is complete, or the cursor is still to come and `head` will not be used. -/
def SteadyFailed (f : FailedTaskFilters) (limit : Int) (cursor : Option String)
    (s : ListingState FailedScan) (l : ListingStep) : Prop :=
  ∀ offset scan, l = .next → s.reading = some (.keys offset scan) →
    pageSize limit ≤ scan.kept.length ∨ (∀ id ∈ idsOf scan.kept,
      id ∈ (s.store.failedIds f).take offset) ∨
      scan.found = false ∧ ∃ c, cursor = some c ∧ c ∈ (s.store.failedIds f).drop offset

/-- What is held while the cursor has not been met: `head`, or the cursor is still to come. -/
def HeadHeld (W : String → Prop) (size : Nat) (cursor : Option String) (l : List String)
    (offset : Nat) (head : List FailedRecord) : Prop :=
  (∃ c, cursor = some c ∧ c ∈ l.drop offset) ∨ Held size W l offset (idsOf head)

/-- The same when a chunk has been taken and its records are to come. -/
def HeadLoading (W : String → Prop) (size : Nat) (cursor : Option String) (l : List String)
    (offset : Nat) (keys : List String) (head : List FailedRecord) : Prop :=
  (∃ c, cursor = some c ∧
    (c ∈ keys ∨ chunkSize size ≤ keys.length ∧ c ∈ l.drop (offset + keys.length))) ∨
  (head.length ≤ size ∧ Loading size W l offset keys (idsOf head)) ∨
  (size < head.length ∧ Gathered W l ((idsOf head).take size))

/-- What is held at each point of the listing. -/
def FailedHeld (W : String → Prop) (size : Nat) (cursor : Option String) (l : List String) :
    Option (Reading String FailedScan) → Prop
  | none => True
  | some (.keys offset ⟨true, _, items⟩) =>
    items.length ≤ size ∧ Held size W l offset (idsOf items)
  | some (.keys offset ⟨false, head, items⟩) =>
    items = [] ∧ head.length ≤ size + 1 ∧ HeadHeld W size cursor l offset head
  | some (.entries offset keys ⟨true, _, items⟩) =>
    items.length ≤ size ∧ Loading size W l offset keys (idsOf items)
  | some (.entries offset keys ⟨false, head, items⟩) =>
    items = [] ∧ head.length ≤ size + 1 ∧ Loading size W l offset keys [] ∧
      HeadLoading W size cursor l offset keys head
  | some (.done scan) => Gathered W l ((idsOf scan.kept).take size)

theorem FailedHeld.grow {W : String → Prop} {size : Nat} {l l' : List String}
    {reading : Option (Reading String FailedScan)} (h : FailedHeld W size cursor l reading)
    (known : ∀ x, W x → x ∈ l) (sub : l.Sublist l') (nodup : l'.Nodup) :
    FailedHeld W size cursor l' reading := by
  match reading with
  | none => exact h
  | some (.keys offset ⟨true, _, items⟩) => exact ⟨h.1, h.2.grow known sub nodup⟩
  | some (.keys offset ⟨false, head, items⟩) =>
    refine ⟨h.1, h.2.1, h.2.2.imp ?_ fun held => held.grow known sub nodup⟩
    rintro ⟨c, rfl, mem⟩
    exact ⟨c, rfl, mem_drop_of_sublist sub nodup mem⟩
  | some (.entries offset keys ⟨true, _, items⟩) => exact ⟨h.1, h.2.grow known sub nodup⟩
  | some (.entries offset keys ⟨false, head, items⟩) =>
    obtain ⟨empty, room, fresh, load⟩ := h
    refine ⟨empty, room, fresh.grow known sub nodup, load.imp ?_ (Or.imp ?_ ?_)⟩
    · rintro ⟨c, rfl, mem⟩
      exact ⟨c, rfl, mem.imp_right (And.imp_right (mem_drop_of_sublist sub nodup))⟩
    · exact And.imp_right fun loading => loading.grow known sub nodup
    · exact And.imp_right fun gathered => gathered.grow known sub nodup
  | some (.done scan) => exact Gathered.grow h known sub nodup

/-- A chunk of ids has been taken. -/
theorem FailedHeld.take {W : String → Prop} {size : Nat} {l : List String} {offset : Nat}
    {scan : FailedScan} (h : FailedHeld W size cursor l (some (.keys offset scan)))
    (nodup : l.Nodup)
    (steady : size ≤ scan.kept.length ∨ (∀ id ∈ idsOf scan.kept, id ∈ l.take offset) ∨
      scan.found = false ∧ ∃ c, cursor = some c ∧ c ∈ l.drop offset) :
    FailedHeld W size cursor l (some (if (((f.reader size cursor).chunkAt l offset).isEmpty)
      then .done scan else .entries offset ((f.reader size cursor).chunkAt l offset) scan)) := by
  have ids : ∀ records : List FailedRecord, (idsOf records).length = records.length :=
    fun records => List.length_map _
  match scan with
  | ⟨true, head, items⟩ =>
    obtain ⟨room, held⟩ := h
    have still : size ≤ (idsOf items).length ∨ ∀ id ∈ idsOf items, id ∈ l.take offset := by
      rw [ids]
      refine steady.imp_right fun rest => rest.resolve_right ?_
      rintro ⟨⟨⟩, -⟩
    split
    · exact held.page
    · exact ⟨room, held.load (by rwa [ids]) nodup _ still⟩
  | ⟨false, head, items⟩ =>
    obtain ⟨empty, room, held⟩ := h
    split
    · next nothing =>
      have behind := Reader.drop_of_empty (List.isEmpty_iff.mp nothing)
      refine (held.resolve_left ?_).page
      rintro ⟨c, -, mem⟩
      rw [behind] at mem
      cases mem
    · refine ⟨empty, room, Held.nil.load (Nat.zero_le _) nodup _ (.inr nofun), ?_⟩
      by_cases coming : ∃ c, cursor = some c ∧ c ∈ l.drop offset
      · obtain ⟨c, rfl, mem⟩ := coming
        refine .inl ⟨c, rfl, ?_⟩
        rw [Reader.drop_eq_chunkAt (r := f.reader size (some c)), List.mem_append] at mem
        refine mem.imp_right fun later => ⟨?_, later⟩
        by_contra short
        have last := Reader.drop_of_short (r := f.reader size (some c)) (l := l)
          (Nat.lt_of_not_le short)
        rw [last, List.length_drop, List.drop_eq_nil_of_le (by omega)] at later
        cases later
      · have held := held.resolve_left coming
        have still : size ≤ (idsOf head).length ∨ ∀ id ∈ idsOf head, id ∈ l.take offset := by
          rw [ids]
          refine steady.imp_right fun rest => rest.resolve_right ?_
          exact fun later => coming later.2
        by_cases fits : head.length ≤ size
        · exact .inr (.inl ⟨fits, held.load (by rwa [ids]) nodup _ still⟩)
        · exact .inr (.inr ⟨Nat.lt_of_not_le fits, held.page⟩)

/-- Where the listing goes from what a chunk has come to. -/
def afterChunk (size offset : Nat) (short : Bool) (scan : FailedScan) :
    Reading String FailedScan :=
  if decide (size < scan.items.length) || short then .done scan else .keys offset scan

theorem failedHeld_after {W : String → Prop} {size offset : Nat} {l : List String}
    {head items : List FailedRecord} (h : Held size W l offset (idsOf items)) (short : Bool) :
    FailedHeld W size cursor l (some (afterChunk size offset short ⟨true, head, items⟩)) := by
  unfold afterChunk
  split
  · exact h.page
  · next unfinished =>
    rw [Bool.or_eq_true, not_or, decide_eq_true_eq] at unfinished
    exact ⟨Nat.le_of_not_lt unfinished.1, h⟩

/-- The records of a chunk have been scanned from the cursor on, or from the start. -/
theorem held_scan (got : List FailedRecord) (pre : List String) {size offset : Nat}
    {keys rest : List String} (grown : (failedListing f limit cursor).Grown s₀ s)
    (h : Loading size ((failedListing f limit cursor).Wanted s₀) (s.failedIds f) offset keys
      (idsOf got))
    (split : keys = pre ++ rest) (first : pre ≠ [] → got = []) (room : got.length ≤ size) :
    Held size ((failedListing f limit cursor).Wanted s₀) (s.failedIds f) (offset + keys.length)
      (idsOf ((collector f.accepts size (chunkSize size) (chunkSize_pos size)).take s.failedRecord
        rest got)) := by
  obtain ⟨part, post, more, rest_eq, taken, all, -, stopped⟩ :=
    @collector_take _ _ f.accepts size _ (chunkSize_pos size) s.failedRecord rest got room
  rw [rest_eq, ← List.append_assoc] at split
  have scan := grown.scanned failedListing_stable (idsOf got) pre split
    (fun ne => by rw [first ne]; rfl)
  have both : idsOf (got ++ more) = idsOf got ++ idsOf more := List.map_append
  rw [all, both, taken]
  refine h _ post scan fun ne => ?_
  have more_ := stopped ne
  rw [← List.length_map FailedRecord.dlqId] at more_
  change size < (idsOf (got ++ more)).length at more_
  rw [both, taken] at more_
  exact more_

/-- The rule for the records of a chunk. -/
theorem FailedHeld.scan {offset : Nat} {keys : List String} {scan : FailedScan}
    (grown : (failedListing f limit cursor).Grown s₀ s)
    (h : FailedHeld ((failedListing f limit cursor).Wanted s₀) (pageSize limit) cursor
      (s.failedIds f) (some (.entries offset keys scan))) :
    FailedHeld ((failedListing f limit cursor).Wanted s₀) (pageSize limit) cursor (s.failedIds f)
      (some (afterChunk (pageSize limit) (offset + keys.length)
        (decide (keys.length < chunkSize (pageSize limit)))
        ((f.reader (pageSize limit) cursor).take s.failedRecord keys scan))) := by
  match scan with
  | ⟨true, head, items⟩ =>
    obtain ⟨room, loading⟩ := h
    rw [take_found]
    exact failedHeld_after (held_scan items [] grown loading rfl (fun ne => absurd rfl ne) room) _
  | ⟨false, head, items⟩ =>
    obtain ⟨rfl, room, fresh, load⟩ := h
    by_cases met : ∃ c, cursor = some c ∧ c ∈ keys
    · obtain ⟨c, rfl, mem⟩ := met
      obtain ⟨above, below, split, absent⟩ := List.eq_append_cons_of_mem mem
      obtain ⟨head', skips⟩ := @take_skips f (pageSize limit) s.failedRecord above below c head
        absent
      rw [split, skips, take_found, ← split]
      have whole : keys = (above ++ [c]) ++ below := by rw [split]; simp
      exact failedHeld_after
        (held_scan [] (above ++ [c]) grown fresh whole (fun _ => rfl) (Nat.zero_le _)) _
    · have absent : ∀ c ∈ keys, cursor ≠ some c := fun c hc same => met ⟨c, same, hc⟩
      rw [take_unfound absent room]
      unfold afterChunk
      rcases load with ⟨c, rfl, place⟩ | ⟨fits, loading⟩ | ⟨full, gathered⟩
      · obtain ⟨long, later⟩ := place.resolve_left fun mem => absent c mem rfl
        rw [if_neg (by simpa using long)]
        exact ⟨rfl, List.length_take_le _ _, .inl ⟨c, rfl, later⟩⟩
      · have held := held_scan head [] grown loading rfl (fun ne => absurd rfl ne) fits
        rw [collector_take_eq fits] at held
        split
        · exact held.page
        · exact ⟨rfl, List.length_take_le _ _, .inr held⟩
      · have same : (head ++ keys.filterMap (accepted f.accepts s.failedRecord)).take
            (pageSize limit + 1) = head := List.take_left' (by omega)
        rw [same]
        split
        · exact gathered
        · refine ⟨rfl, room, .inr ⟨gathered, fun short => ?_⟩⟩
          rw [idsOf, List.length_map] at short
          omega

theorem FailedHeld.next {a b : ListingState FailedScan} {l : ListingStep}
    (h : (failedListing f limit cursor).Grown s₀ a.store ∧
      FailedHeld ((failedListing f limit cursor).Wanted s₀) (pageSize limit) cursor
        (a.store.failedIds f) a.reading)
    (steady : SteadyFailed f limit cursor a l)
    (step : (failedListing f limit cursor).machine.next a l = some b) :
    (failedListing f limit cursor).Grown s₀ b.store ∧
      FailedHeld ((failedListing f limit cursor).Wanted s₀) (pageSize limit) cursor
        (b.store.failedIds f) b.reading := by
  obtain ⟨grown, held⟩ := h
  cases l with
  | add r =>
    simp only [Listing.machine] at step
    split at step
    · next fresh =>
      obtain rfl := Option.some.inj step
      have stable : (failedListing f limit cursor).Stable := failedListing_stable
      exact ⟨grown.add stable fresh, held.grow grown.known (stable.sub a.store r fresh)
        (stable.nodup _)⟩
    · cases step
  | next =>
    simp only [Listing.machine] at step
    split at step
    · obtain rfl := Option.some.inj step
      refine ⟨grown, ?_⟩
      cases cursor with
      | none => exact ⟨Nat.zero_le _, .nil⟩
      | some c => exact ⟨rfl, Nat.zero_le _, .inr .nil⟩
    · next reading here =>
      obtain ⟨after, trip, rfl⟩ := Option.map_eq_some_iff.mp step
      rw [here] at held
      refine ⟨grown, ?_⟩
      cases reading with
      | keys offset scan =>
        obtain rfl := Option.some.inj trip
        exact held.take (a.store.index.nodup_revRange f.window)
          (steady offset scan rfl here)
      | entries offset keys scan =>
        obtain rfl := Option.some.inj trip
        exact held.scan grown
      | done scan => cases trip

theorem list_failed_task_records_one_page {ls : List ListingStep} {scan : FailedScan}
    (along : (failedListing f limit cursor).machine.Along (SteadyFailed f limit cursor)
      ⟨s₀, none⟩ ls)
    (run : (failedListing f limit cursor).machine.exec ⟨s₀, none⟩ ls =
      some ⟨s, some (.done scan)⟩) :
    OnePage (failedListing f limit cursor) s₀ s (idsOf (scan.finish (pageSize limit)).1) := by
  have start : (failedListing f limit cursor).Grown s₀ s₀ ∧
      FailedHeld ((failedListing f limit cursor).Wanted s₀) (pageSize limit) cursor
        (s₀.failedIds f) none := ⟨.refl, trivial⟩
  have held := (Machine.invariant_along (I := fun a : ListingState FailedScan =>
      (failedListing f limit cursor).Grown s₀ a.store ∧
        FailedHeld ((failedListing f limit cursor).Wanted s₀) (pageSize limit) cursor
          (a.store.failedIds f) a.reading)
    (fun _ _ _ h steady step => FailedHeld.next h steady step) start along run).2
  have page : idsOf (scan.finish (pageSize limit)).1 =
      (idsOf scan.kept).take (pageSize limit) := by
    have finish : scan.finish (pageSize limit) =
        FailedTaskFilters.cut (pageSize limit) scan.kept := rfl
    rw [finish, FailedTaskFilters.cut]
    split
    · exact List.map_take
    · rw [List.take_of_length_le (by rw [idsOf, List.length_map]; omega)]
  rw [page]
  exact .of_gathered failedListing_stable held

end Failed

/-- In every run in which no chunk takes again what its page already has, a listing of either kind
repeats no record and leaves none out. -/
theorem one_listing (s₀ : RecordStore) :
    (∀ (f : RecordFilters) (state : Option (Option DLQRecordState)) (limit : Int)
      (cursor : Option String) (ls : List ListingStep) (s : RecordStore)
      (items : List StoredRecord),
      (recordListing f state limit cursor).machine.Along (SteadyRecords limit) ⟨s₀, none⟩ ls →
      (recordListing f state limit cursor).machine.exec ⟨s₀, none⟩ ls =
        some ⟨s, some (.done items)⟩ →
      OnePage (recordListing f state limit cursor) s₀ s
        ((cutPage (·.dlqId) (pageSize limit) items).1.map (·.dlqId))) ∧
    ∀ (f : FailedTaskFilters) (limit : Int) (cursor : Option String) (ls : List ListingStep)
      (s : RecordStore) (scan : FailedScan),
      (failedListing f limit cursor).machine.Along (SteadyFailed f limit cursor) ⟨s₀, none⟩ ls →
      (failedListing f limit cursor).machine.exec ⟨s₀, none⟩ ls =
        some ⟨s, some (.done scan)⟩ →
      OnePage (failedListing f limit cursor) s₀ s (idsOf (scan.finish (pageSize limit)).1) :=
  ⟨fun _ _ _ _ _ _ _ along run => list_records_one_page along run,
    fun _ _ _ _ _ _ along run => list_failed_task_records_one_page along run⟩

/-! ## A record is added between two chunks -/

/-- The second chunk is taken after the add and is the last one. -/
def crossing (r : StoredRecord) : List ListingStep :=
  [.next, .next, .next, .add r, .next, .next]

/-- Ids with their scores, of which only some have a record that is there. -/
def sparse (entries : List (String × Int)) (distinct : (entries.map Prod.fst).Nodup)
    (kept : List StoredRecord) : RecordStore where
  ids := entries.map Prod.fst
  index := ⟨entries, distinct⟩
  records id := kept.find? fun r => r.dlqId = id
  nodup := distinct
  named id r h := by simpa using List.find?_some h

/-- Ninety-nine ids whose records are gone. -/
def gone : List (String × Int) :=
  (List.range 99).map fun n => (String.ofList (List.replicate (n + 2) 'g'), 100 - (n : Int))

def newestRecord : StoredRecord := sampleRecord "w" 101 (by decide)
def oldestRecord : StoredRecord := sampleRecord "x" 1 (by decide)
def addedRecord : StoredRecord := sampleRecord "y" 102 (by decide)

/-- A record on each side of the end of the first chunk. -/
def spread : RecordStore :=
  sparse (("w", 101) :: (gone ++ [("x", 1)])) (by decide +kernel) [newestRecord, oldestRecord]

theorem fresh_spread : spread.Fresh addedRecord := by decide +kernel

def spreadAfter : RecordStore := spread.add addedRecord fresh_spread.1

/-- Where the second chunk begins, and what is held there. -/
def betweenChunks {σ : Type} (state : σ) : ListingState σ := ⟨spreadAfter, some (.keys 100 state)⟩

theorem records_steady : SteadyRecords 2 (betweenChunks [newestRecord]) .next := by
  rintro offset items - ⟨⟩
  refine .inr fun r mem => ?_
  rw [List.mem_singleton.mp mem]
  decide +kernel

theorem failed_steady : SteadyFailed {} 2 none
    (betweenChunks ⟨true, [], [newestRecord.toFailedRecord]⟩) .next := by
  rintro offset scan - ⟨⟩
  refine .inr (.inl fun id mem => ?_)
  rw [List.mem_singleton.mp mem]
  decide +kernel

set_option maxRecDepth 4000 in
theorem one_listing_across_chunks :
    OnePage (recordListing {} none 2 none) spread spreadAfter ["w", "x"] ∧
      OnePage (failedListing {} 2 none) spread spreadAfter ["w", "x"] := by
  refine ⟨(one_listing spread).1 {} none 2 none (crossing addedRecord) spreadAfter
      [newestRecord, oldestRecord] ?_ rfl,
    (one_listing spread).2 {} 2 none (crossing addedRecord) spreadAfter
      ⟨true, [], [newestRecord.toFailedRecord, oldestRecord.toFailedRecord]⟩ ?_ rfl⟩
  · refine .cons nofun rfl (.cons ?_ rfl (.cons nofun rfl (.cons nofun rfl
      (.cons records_steady rfl (.cons nofun rfl trivial)))))
    rintro offset items - ⟨⟩
    exact .inr fun r mem => absurd mem List.not_mem_nil
  · let one : FailedScan := ⟨true, [], [newestRecord.toFailedRecord]⟩
    let m := (failedListing {} 2 none).machine
    have chunk : m.next ⟨spread, some (.keys 0 ⟨true, [], []⟩)⟩ .next =
        some ⟨spread, some (.entries 0 (spread.ids.take 100) ⟨true, [], []⟩)⟩ := rfl
    have loaded : m.next ⟨spread, some (.entries 0 (spread.ids.take 100) ⟨true, [], []⟩)⟩ .next =
        some ⟨spread, some (.keys 100 one)⟩ := rfl
    have again : m.next (betweenChunks one) .next =
        some ⟨spreadAfter, some (.entries 100 (spreadAfter.ids.drop 100) one)⟩ := rfl
    refine .cons nofun rfl (.cons ?_ chunk (.cons nofun loaded (.cons nofun rfl
      (.cons failed_steady again (.cons nofun rfl trivial)))))
    rintro offset scan - ⟨⟩
    exact .inr (.inl fun id mem => absurd mem List.not_mem_nil)

/-! ## A record is taken twice -/

/-- Ninety-nine ids whose records are gone stand before one that is there. -/
def crowded : RecordStore := sparse (gone ++ [("x", 1)]) (by decide +kernel) [oldestRecord]

theorem fresh_crowded : crowded.Fresh addedRecord := by decide +kernel

set_option maxRecDepth 4000 in
theorem listing_repeats_a_record :
    ¬ ∀ (s₀ : RecordStore) (f : RecordFilters) (state : Option (Option DLQRecordState))
      (limit : Int) (cursor : Option String) (ls : List ListingStep) (s : RecordStore)
      (items : List StoredRecord),
      (recordListing f state limit cursor).machine.exec ⟨s₀, none⟩ ls =
        some ⟨s, some (.done items)⟩ →
      ((cutPage (fun r : StoredRecord => r.dlqId) (pageSize limit) items).1.map
        (·.dlqId)).Nodup := by
  intro h
  -- The second chunk is the last id of the first.
  have nodup := h crowded {} none 2 none (crossing addedRecord)
    (crowded.add addedRecord fresh_crowded.1) [oldestRecord, oldestRecord] rfl
  change ["x", "x"].Nodup at nodup
  exact absurd nodup (by decide)

end Relayna.Dlq
