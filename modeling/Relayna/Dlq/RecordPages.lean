import Relayna.Dlq.RecordStore

/-!
# Following the cursors of the dead-letter store

The pages of `list_records`, and of `list_failed_task_records` while nobody writes, are those of
one list. New records go to the head of the list of ids, so the place of a cursor in it is kept.

The sorted set can lose a cursor: its record is deleted or its time leaves the window. The next
page is then the first one.
-/
namespace Relayna.Dlq

open Chunks Pages

/-! ## `list_records` -/

namespace RecordStore

/-- The position of the first occurrence is where what is below begins. -/
theorem drop_idxOf (l : List String) (c : String) :
    l.drop (match l.idxOf? c with | some position => position + 1 | none => 0) =
      below id l (some c) := by
  cases found : l.idxOf? c with
  | none => exact (below_of_absent (by simpa using found)).symm
  | some i =>
    obtain ⟨lt, here, first⟩ := List.idxOf?_eq_some_iff.mp found
    have absent : c ∉ (l.take i).map id := by
      rw [List.map_id]
      intro mem
      obtain ⟨j, hj, same⟩ := List.getElem_of_mem mem
      rw [List.length_take] at hj
      rw [List.getElem_take] at same
      exact first j (by omega) same
    have split : l = l.take i ++ c :: l.drop (i + 1) := by
      rw [← here, ← List.drop_eq_getElem_cons lt, List.take_append_drop]
    have below_ : below id (l.take i ++ c :: l.drop (i + 1)) (some (id c)) = l.drop (i + 1) :=
      below_split absent
    rw [← split] at below_
    exact below_.symm

/-- What is left below the cursor, which counts only when it is not empty. -/
def leftIds (s : RecordStore) (cursor : Option String) : List String :=
  below id s.ids (cursor.filter (· ≠ ""))

theorem drop_startIndex (s : RecordStore) (cursor : Option String) :
    s.ids.drop (s.startIndex cursor) = s.leftIds cursor := by
  cases cursor with
  | none => rfl
  | some c =>
    unfold startIndex leftIds
    by_cases blank : c = ""
    · subst blank
      rfl
    · rw [Option.filter_some_pos (by simpa using blank), ← drop_idxOf]
      exact congrArg (List.drop · s.ids) (if_neg blank)

/-- The records of these ids that are there and pass the filters. -/
def passing (s : RecordStore) (f : RecordFilters) (state : Option (Option DLQRecordState))
    (ids : List String) : List StoredRecord :=
  ids.filterMap (accepted (f.accepts state) s.records)

theorem listRecords_eq (s : RecordStore) (f : RecordFilters) (limit : Int)
    (cursor : Option String) : s.listRecords f limit cursor = f.normalizedState.map fun state =>
      cutPage (·.dlqId) (pageSize limit) (s.passing f state (s.leftIds cursor)) := by
  unfold listRecords
  congr 1
  funext state
  have collected := @collector_take_eq _ _ (f.accepts state) (pageSize limit)
    (chunkSize (pageSize limit)) (chunkSize_pos _) s.records (s.leftIds cursor) []
    (Nat.zero_le _)
  rw [Reader.read_eq (by simp [RecordFilters.reader, collector]), drop_startIndex,
    RecordFilters.reader, collected, List.nil_append, cutPage_take]
  rfl

/-- Records are added, each under an id that the list does not have. -/
inductive Grows (s : RecordStore) : RecordStore → Prop where
  | refl : Grows s s
  | add (t : RecordStore) (r : StoredRecord) (fresh : r.dlqId ∉ t.ids) (before : Grows s t) :
      Grows s (t.add r fresh)

variable {s t : RecordStore}

theorem add_records {r : StoredRecord} (fresh : r.dlqId ∉ s.ids) {dlqId : String}
    (old : dlqId ∈ s.ids) : (s.add r fresh).records dlqId = s.records dlqId :=
  Function.update_of_ne (fun same => fresh (by rw [← same]; exact old)) _ _

/-- The ids that are there keep their places and their records. -/
theorem Grows.keeps (h : Grows s t) {c : String} (present : c ∈ s.ids) :
    c ∈ t.ids ∧ Pages.below id t.ids (some c) = Pages.below id s.ids (some c) ∧
      t.records c = s.records c := by
  induction h with
  | refl => exact ⟨present, rfl, rfl⟩
  | add t r fresh before ih =>
    obtain ⟨mem, same, record⟩ := ih
    refine ⟨List.mem_cons_of_mem _ mem, ?_, (add_records fresh mem).trans record⟩
    rw [← same]
    exact below_cons (fun e => fresh (by rw [← id_eq r.dlqId, e]; exact mem)) (by simpa using mem)

theorem accepted_name {accept : StoredRecord → Bool} (dlqId : String) (r : StoredRecord)
    (h : accepted accept s.records dlqId = some r) : r.dlqId = id dlqId :=
  s.named dlqId r (Option.filter_eq_some_iff.mp h).1

/-- Below a record of a page, later on, are the records that were left behind it. -/
theorem Grows.passing_below (h : Grows s t) {f : RecordFilters}
    {state : Option (Option DLQRecordState)} {cursor : Option String} {u v : List StoredRecord}
    {r : StoredRecord} (split : s.passing f state (s.leftIds cursor) = u ++ r :: v) :
    t.passing f state (t.leftIds (some r.dlqId)) = v := by
  have nodup : (s.ids.map id).Nodup := by
    rw [List.map_id]
    exact s.nodup
  obtain ⟨later, present⟩ := filterMap_below accepted_name nodup (below_suffix s.ids _) split
  rw [List.map_id] at present
  obtain ⟨-, same, -⟩ := h.keeps present
  rw [leftIds, Option.filter_some_pos (by simpa using r.dlqId_ne), same, ← later]
  refine List.filterMap_congr fun dlqId mem => ?_
  rw [accepted, accepted, (h.keeps ((below_suffix s.ids _).subset mem)).2.2]

theorem nodup_passing (s : RecordStore) (f : RecordFilters)
    (state : Option (Option DLQRecordState)) : ((s.passing f state s.ids).map (·.dlqId)).Nodup := by
  have sub : ((s.passing f state s.ids).map (·.dlqId)).Sublist s.ids :=
    map_accepted_sublist s.named s.ids
  exact sub.nodup s.nodup

/-- Whatever is added between the calls, the pages hold the records of the first call that pass the
filters, in the order of the list. -/
theorem list_records_lossless (f : RecordFilters) (limit : Int) (s : RecordStore)
    (later : List RecordStore) (added : (s :: later).IsChain Grows)
    (enough : s.ids.length ≤ later.length) :
    follow (fun t cursor => t.listRecords f limit cursor) (s :: later) none =
        (f.normalizedState.map fun state =>
          (pagesOf (pageSize limit) (s.passing f state s.ids), none)) ∧
      ∀ state, (pagesOf (pageSize limit) (s.passing f state s.ids)).flatten =
          s.passing f state s.ids ∧
        ((s.passing f state s.ids).map (·.dlqId)).Nodup := by
  refine ⟨?_, fun state => ⟨flatten_pagesOf _ _, s.nodup_passing f state⟩⟩
  simp only [listRecords_eq]
  cases f.normalizedState with
  | error e => rfl
  | ok state =>
    refine follow_eq (fun t cursor => t.passing f state (t.leftIds cursor)) (pageSize_pos limit)
      ?_ ?_ added ?_
    · intro t cursor last
      exact congrArg Except.ok (cutPage_last last)
    · intro t cursor more
      obtain ⟨u, r, split, page⟩ := cutPage_more (fun r : StoredRecord => r.dlqId)
        (pageSize_pos limit) more
      exact ⟨r.dlqId, congrArg Except.ok page, fun t' grown => grown.passing_below split⟩
    · exact (List.length_filterMap_le _ _).trans enough

end RecordStore

def sampleRecord (dlqId : String) (failedScore : Int) (present : dlqId ≠ "") : StoredRecord :=
  { dlqId := dlqId, failedAt := "", reason := "handler_error", state := .deadLettered,
    replayCount := 0, replayedAt := none, replayTargetQueueName := none,
    failedScore := failedScore, dlqId_ne := present }

namespace RecordStore

def oneRecord : RecordStore := init.add (sampleRecord "one" 1 (by decide)) List.not_mem_nil

def twoRecords : RecordStore :=
  oneRecord.add (sampleRecord "two" 2 (by decide)) (show "two" ∉ ["one"] by decide)

def threeRecords : RecordStore :=
  twoRecords.add (sampleRecord "three" 3 (by decide)) (show "three" ∉ ["two", "one"] by decide)

/-- A record is added after the first of two pages; the second is the one below its cursor. -/
theorem list_records_lossless_in_twoRecords :
    follow (fun t cursor => t.listRecords {} 1 cursor) [twoRecords, threeRecords, threeRecords]
        none =
      .ok ([[sampleRecord "two" 2 (by decide)], [sampleRecord "one" 1 (by decide)]], none) := by
  have pages : pagesOf 1 [sampleRecord "two" 2 (by decide), sampleRecord "one" 1 (by decide)] =
      [[sampleRecord "two" 2 (by decide)], [sampleRecord "one" 1 (by decide)]] := by
    rw [pagesOf, if_pos (by decide), List.drop_one, List.tail_cons, pagesOf, if_neg (by decide)]
    rfl
  rw [← pages]
  exact (list_records_lossless {} 1 twoRecords [threeRecords, threeRecords]
    (.cons_cons (.add _ _ _ .refl) (.cons_cons .refl (.singleton _))) (Nat.le_refl 2)).1

end RecordStore

/-! ## `list_failed_task_records` -/

namespace FailedTaskFilters

/-- Taking the entries one by one comes to what the scan of the whole range says. -/
theorem finish_foldUntil (f : FailedTaskFilters) (size : Nat) (cursor : Option String)
    (entries : List IndexEntry) (found : Bool) (head items : List FailedRecord)
    (room : items.length ≤ size) :
    (foldUntil (f.step size cursor) (f.reader size cursor).full
      (entries.map fun e => (e.dlqId, e.record)) ⟨found, head, items⟩).finish size =
      f.scan size cursor entries found head items := by
  induction entries generalizing found head items with
  | nil =>
    cases found
    · rfl
    · rw [scan, if_pos rfl]
      change cut size items = (items, none)
      exact if_neg (by omega)
  | cons e entries ih =>
    rw [List.map_cons, foldUntil]
    cases found with
    | false =>
      have unfilled : (f.reader size cursor).full
          (f.step size cursor (e.dlqId, e.record) ⟨false, head, items⟩) = false := by
        simp [reader, step, room]
      rw [if_neg (by rw [unfilled]; simp), scan, ← ih _ _ _ room]
      rfl
    | true =>
      rw [scan]
      cases here : f.matching e with
      | none =>
        have same : f.step size cursor (e.dlqId, e.record) ⟨true, head, items⟩ =
            ⟨true, head, items⟩ := by
          unfold matching at here
          simp [step, here]
        rw [same, if_neg (by simpa [reader] using room)]
        exact ih _ _ _ room
      | some r =>
        have added : f.step size cursor (e.dlqId, e.record) ⟨true, head, items⟩ =
            ⟨true, head, items ++ [r]⟩ := by
          unfold matching at here
          simp [step, here]
        rw [added]
        dsimp only
        by_cases full : (items ++ [r]).length > size
        · rw [if_pos (by simpa [reader] using full), if_pos full]
          rfl
        · rw [if_neg (by simpa [reader] using full), if_neg full]
          exact ih _ _ _ (by omega)

end FailedTaskFilters

namespace RecordStore

/-- The sorted set with the records of its members, from the highest score. -/
def failedIndex (s : RecordStore) : List IndexEntry :=
  s.index.sorted.reverse.map fun e =>
    { dlqId := e.1
      score := e.2
      record := s.failedRecord e.1
      record_id := fun r h => by
        obtain ⟨stored, found, rfl⟩ := Option.map_eq_some_iff.mp h
        exact s.named e.1 stored found }

theorem nodup_failedIndex (s : RecordStore) : (s.failedIndex.map IndexEntry.dlqId).Nodup := by
  have all := s.index.nodup_revRange fun _ => true
  rw [SortedSet.revRange, List.filter_eq_self.mpr (by simp)] at all
  rw [failedIndex, List.map_map]
  exact all

/-- The window of the sorted set is the window of its entries. -/
theorem failedIds_eq (s : RecordStore) (f : FailedTaskFilters) :
    (s.failedIndex.filter f.inRange).map IndexEntry.dlqId = s.failedIds f := by
  rw [failedIndex, List.filter_map, List.map_map]
  rfl

theorem failedEntries_eq (s : RecordStore) (f : FailedTaskFilters) :
    (s.failedIndex.filter f.inRange).map (fun e => (e.dlqId, e.record)) =
      (s.failedIds f).map fun dlqId => (dlqId, s.failedRecord dlqId) := by
  rw [← failedIds_eq, List.map_map]
  refine List.map_congr_left fun e he => ?_
  obtain ⟨member, -, rfl⟩ := List.mem_map.mp (List.mem_of_mem_filter he)
  rfl

/-- The chunks of the listing come to one scan of the window. -/
theorem listFailedTaskRecords_refines (s : RecordStore) (f : FailedTaskFilters) (limit : Int)
    (cursor : Option String) : s.listFailedTaskRecords f limit cursor =
      f.listFailedTaskRecords s.failedIndex cursor limit.toNat := by
  have size : max 1 limit.toNat = pageSize limit := by
    unfold pageSize
    omega
  rw [FailedTaskFilters.listFailedTaskRecords, size,
    ← FailedTaskFilters.finish_foldUntil _ _ _ _ _ _ _ (Nat.zero_le _), failedEntries_eq]
  unfold listFailedTaskRecords
  rw [Reader.read_eq (by simp [FailedTaskFilters.reader])]
  rfl

/-- The records in the window that are there and pass the filters. -/
def failedPassing (s : RecordStore) (f : FailedTaskFilters) : List FailedRecord :=
  (s.failedIds f).filterMap (accepted f.accepts s.failedRecord)

theorem failedPassing_eq (s : RecordStore) (f : FailedTaskFilters) :
    (s.failedIndex.filter f.inRange).filterMap f.matching = s.failedPassing f := by
  have entries := congrArg (List.filterMap fun e : String × Option FailedRecord =>
    e.2.filter f.accepts) (s.failedEntries_eq f)
  rw [List.filterMap_map, List.filterMap_map] at entries
  exact entries

/-- What is left below a cursor. -/
def failedLeft (s : RecordStore) (f : FailedTaskFilters) (cursor : Option String) :
    List FailedRecord :=
  (below IndexEntry.dlqId (s.failedIndex.filter f.inRange) cursor).filterMap f.matching

theorem failedPage_eq (s : RecordStore) (f : FailedTaskFilters) (limit : Int)
    (cursor : Option String) : s.listFailedTaskRecords f limit cursor =
      cutPage FailedRecord.dlqId (pageSize limit) (s.failedLeft f cursor) := by
  have size : max 1 limit.toNat = pageSize limit := by
    unfold pageSize
    omega
  rw [listFailedTaskRecords_refines,
    FailedTaskFilters.listFailedTaskRecords_eq s.nodup_failedIndex, size]
  rfl

/-- The page of a cursor that the window does not have is the first one. -/
theorem failedPage_of_absent (s : RecordStore) (f : FailedTaskFilters) (limit : Int) (c : String)
    (absent : c ∉ s.failedIds f) :
    s.listFailedTaskRecords f limit (some c) = s.listFailedTaskRecords f limit none := by
  rw [← failedIds_eq] at absent
  rw [failedPage_eq, failedPage_eq, failedLeft, below_of_absent absent]
  rfl

theorem not_mem_failedIds_delete (s : RecordStore) (f : FailedTaskFilters) (c : String) :
    c ∉ (s.delete c).failedIds f := by
  intro mem
  obtain ⟨⟨a, score⟩, he, rfl⟩ := List.mem_map.mp mem
  exact (SortedSet.mem_remove.mp (SortedSet.mem_revRange.mp he).1).1 rfl

theorem not_mem_failedIds_update (s : RecordStore) (f : FailedTaskFilters) (r : StoredRecord)
    (out : f.window r.failedScore = false) : r.dlqId ∉ (s.update r).failedIds f := by
  intro mem
  obtain ⟨⟨a, score⟩, he, rfl⟩ := List.mem_map.mp mem
  obtain ⟨entry, inside⟩ := SortedSet.mem_revRange.mp he
  rcases SortedSet.mem_add.mp entry with ⟨-, rfl⟩ | ⟨ne, -⟩
  · exact absurd inside (by simp [out])
  · exact ne rfl

theorem failedLeft_below (s : RecordStore) (f : FailedTaskFilters) {cursor : Option String}
    {u v : List FailedRecord} {r : FailedRecord} (split : s.failedLeft f cursor = u ++ r :: v) :
    s.failedLeft f (some r.dlqId) = v := by
  have nodup : ((s.failedIndex.filter f.inRange).map IndexEntry.dlqId).Nodup := by
    rw [failedIds_eq]
    exact s.index.nodup_revRange f.window
  exact (FailedTaskFilters.matching_below nodup (below_suffix _ cursor) split).1

theorem isChain_replicate (s : RecordStore) (n : Nat) :
    (s :: List.replicate n s).IsChain (· = ·) := by
  induction n with
  | zero => exact .singleton s
  | succ n ih => exact .cons_cons rfl ih

/-- Without a change in between, the pages hold what passes the filters in the order of the sorted
set. A cursor that is no longer in the window starts the paging over. -/
theorem list_failed_task_records_lossless (s : RecordStore) (f : FailedTaskFilters) (limit : Int) :
    (follow (ε := StateError) (fun t cursor => .ok (t.listFailedTaskRecords f limit cursor))
        (s :: List.replicate s.index.card s) none =
          .ok (pagesOf (pageSize limit) (s.failedPassing f), none) ∧
      (pagesOf (pageSize limit) (s.failedPassing f)).flatten = s.failedPassing f ∧
      (s.index.revRange f.window).Pairwise (fun x y => SortedSet.Before y x) ∧
      (s.failedIds f).Nodup) ∧
    (∀ (t : RecordStore) (c : String), c ∉ t.failedIds f →
      t.listFailedTaskRecords f limit (some c) = t.listFailedTaskRecords f limit none) ∧
    (∀ c, c ∉ (s.delete c).failedIds f) ∧
    ∀ r : StoredRecord, f.window r.failedScore = false → r.dlqId ∉ (s.update r).failedIds f := by
  refine ⟨⟨?_, flatten_pagesOf _ _, s.index.pairwise_revRange f.window,
    s.index.nodup_revRange f.window⟩, fun t c => t.failedPage_of_absent f limit c,
    s.not_mem_failedIds_delete f, s.not_mem_failedIds_update f⟩
  have first : s.failedLeft f none = s.failedPassing f := s.failedPassing_eq f
  simp only [failedPage_eq, ← first]
  refine follow_eq (fun t cursor => t.failedLeft f cursor) (pageSize_pos limit) ?_ ?_
    (s.isChain_replicate _) ?_
  · intro t cursor last
    exact congrArg Except.ok (cutPage_last last)
  · intro t cursor more
    obtain ⟨u, r, split, page⟩ := cutPage_more FailedRecord.dlqId (pageSize_pos limit) more
    refine ⟨r.dlqId, congrArg Except.ok page, ?_⟩
    rintro t' rfl
    exact t.failedLeft_below f split
  · rw [first, List.length_replicate]
    refine (List.length_filterMap_le _ _).trans ?_
    rw [failedIds, List.length_map]
    refine (List.length_filter_le _ _).trans ?_
    rw [List.length_reverse, SortedSet.sorted, List.length_insertionSort]
    exact Nat.le_refl _

/-- The first page has the third and the second record; when the second is deleted, the third
comes again. -/
theorem deleted_cursor_repeats_a_record :
    ¬ ∀ (s : RecordStore) (f : FailedTaskFilters) (limit : Int) (page : List FailedRecord)
      (c : String), s.listFailedTaskRecords f limit none = (page, some c) →
        ∀ r ∈ ((s.delete c).listFailedTaskRecords f limit (some c)).1, r ∉ page := by
  intro h
  have first : threeRecords.listFailedTaskRecords {} 2 none =
      ([(sampleRecord "three" 3 (by decide)).toFailedRecord,
        (sampleRecord "two" 2 (by decide)).toFailedRecord], some "two") := by
    rw [listFailedTaskRecords_refines]
    rfl
  have second : (threeRecords.delete "two").listFailedTaskRecords {} 2 (some "two") =
      ([(sampleRecord "three" 3 (by decide)).toFailedRecord,
        (sampleRecord "one" 1 (by decide)).toFailedRecord], none) := by
    rw [listFailedTaskRecords_refines]
    rfl
  exact h threeRecords {} 2 _ _ first (sampleRecord "three" 3 (by decide)).toFailedRecord
    (by rw [second]; exact List.mem_cons_self) List.mem_cons_self

end RecordStore

end Relayna.Dlq
