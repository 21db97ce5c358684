import Relayna.Dlq.Service
import Relayna.Foundation.Pages

/-!
# The index of the failed tasks of a service

`list_failed_task_records` of `RedisDLQStore` reads a sorted set of record ids from the newest to
the oldest, loads the records and keeps those that the filters match. Its cursor is the id of the
last record of a page. Until the cursor is met the matching records go to `head`, which stands in
for the page when the cursor is not there at all.

The chunks of `zrevrangebyscore` follow each other, so the scan is over the whole range. No code
sets the `failure_id` of a record, so the failure id of its summary is its `dlq_id`.
-/
namespace Relayna.Dlq

open Python Pages

/-- The fields of a record that the filters and the merge of the feeds read. -/
structure FailedRecord where
  dlqId : String
  serviceName : Option String := none
  queueName : String := ""
  sourceQueueName : String := ""
  exceptionType : Option String := none
  status : String := "DLQ"
  taskId : Option String := none
  workerId : Option String := none
  investigationStatus : FailedTaskInvestigationStatus := .unreviewed
  /-- `failed_at or dead_lettered_at`, as the summary shows it. -/
  failedAt : String
  deriving DecidableEq, Repr

/-- A member of the sorted set, and the record under its key. -/
structure IndexEntry where
  dlqId : String
  score : Int
  record : Option FailedRecord
  record_id : ∀ r ∈ record, r.dlqId = dlqId

structure FailedTaskFilters where
  serviceName : Option String := none
  queueName : Option String := none
  dlqName : Option String := none
  errorType : Option String := none
  status : Option String := none
  taskId : Option String := none
  workerId : Option String := none
  investigationStatus : Option FailedTaskInvestigationStatus := none
  failedFrom : Option Int := none
  failedTo : Option Int := none

namespace FailedTaskFilters

/-- `not wanted or value == wanted`. -/
def asked (wanted value : Option String) : Bool :=
  wanted == none || wanted == some "" || value == wanted

/-- `_failed_record_matches`. -/
def accepts (f : FailedTaskFilters) (r : FailedRecord) : Bool :=
  asked f.serviceName r.serviceName && asked f.queueName (some r.sourceQueueName) &&
  asked f.dlqName (some r.queueName) && asked f.errorType r.exceptionType &&
  asked f.status (some r.status) && asked f.taskId r.taskId && asked f.workerId r.workerId &&
  (f.investigationStatus == none || f.investigationStatus == some r.investigationStatus)

def inRange (f : FailedTaskFilters) (e : IndexEntry) : Bool :=
  f.failedFrom.all (· ≤ e.score) && f.failedTo.all (e.score ≤ ·)

/-- The record of an entry, if it is there and matches. -/
def matching (f : FailedTaskFilters) (e : IndexEntry) : Option FailedRecord :=
  e.record.filter f.accepts

/-- The page, and the cursor of the next one. -/
def cut (pageSize : Nat) (items : List FailedRecord) : List FailedRecord × Option String :=
  if items.length > pageSize then
    (items.take pageSize, (items.take pageSize).getLast?.map (·.dlqId))
  else (items, none)

/-- The scan; `found` is `cursor_found`. -/
def scan (f : FailedTaskFilters) (pageSize : Nat) (cursor : Option String) :
    List IndexEntry → Bool → List FailedRecord → List FailedRecord →
      List FailedRecord × Option String
  | [], found, head, items => if found then (items, none) else cut pageSize head
  | e :: rest, false, head, items =>
    let head := match f.matching e with
      | some r => if head.length ≤ pageSize then head ++ [r] else head
      | none => head
    f.scan pageSize cursor rest (some e.dlqId = cursor) head items
  | e :: rest, true, head, items =>
    match f.matching e with
    | some r =>
      if (items ++ [r]).length > pageSize then cut pageSize (items ++ [r])
      else f.scan pageSize cursor rest true head (items ++ [r])
    | none => f.scan pageSize cursor rest true head items

/-- `list_failed_task_records`. -/
def listFailedTaskRecords (f : FailedTaskFilters) (index : List IndexEntry)
    (cursor : Option String) (limit : Nat) : List FailedRecord × Option String :=
  f.scan (max 1 limit) cursor (index.filter f.inRange) cursor.isNone [] []

/-! ## A page is what follows the cursor -/

variable {f : FailedTaskFilters} {pageSize : Nat} {cursor : Option String}
  {index rest : List IndexEntry} {head items : List FailedRecord}

/-- Only the items of a page matter, and whether there is another one. -/
theorem cut_take : cut pageSize (items.take (pageSize + 1)) = cut pageSize items := by
  by_cases more : items.length > pageSize
  · rw [cut, cut, if_pos more, if_pos (by rw [List.length_take]; omega), List.take_take,
      Nat.min_eq_left (by omega)]
  · rw [List.take_of_length_le (by omega)]

theorem cut_append {more : List FailedRecord} (full : items.length = pageSize + 1) :
    cut pageSize (items ++ more) = cut pageSize items := by
  rw [← cut_take, ← full, List.take_left]

theorem scan_found (room : items.length ≤ pageSize) :
    f.scan pageSize cursor rest true head items =
      cut pageSize (items ++ rest.filterMap f.matching) := by
  induction rest generalizing items with
  | nil =>
    rw [scan, if_pos rfl, List.filterMap_nil, List.append_nil, cut, if_neg (by omega)]
  | cons e rest ih =>
    rw [scan]
    cases here : f.matching e with
    | none =>
      rw [List.filterMap_cons_none here]
      exact ih room
    | some r =>
      rw [List.filterMap_cons_some here, List.append_cons]
      dsimp only
      split
      · rename_i full
        have length : (items ++ [r]).length = pageSize + 1 := by
          rw [List.length_append, List.length_singleton] at full ⊢
          omega
        rw [cut_append length]
      · exact ih (by omega)

/-- The records that match come to `head` until it is longer than a page. -/
theorem scan_absent {a : String} {seen : List FailedRecord}
    (absent : a ∉ rest.map IndexEntry.dlqId) :
    f.scan pageSize (some a) rest false (seen.take (pageSize + 1)) items =
      cut pageSize (seen ++ rest.filterMap f.matching) := by
  induction rest generalizing seen with
  | nil => rw [scan, if_neg (by simp), cut_take, List.filterMap_nil, List.append_nil]
  | cons e rest ih =>
    rw [List.map_cons, List.mem_cons, not_or] at absent
    rw [scan, decide_eq_false (by simpa using Ne.symm absent.1)]
    cases here : f.matching e with
    | none =>
      rw [List.filterMap_cons_none here]
      exact ih absent.2
    | some r =>
      rw [List.filterMap_cons_some here, List.append_cons, ← ih absent.2]
      dsimp only
      congr 1
      split
      · rename_i room
        rw [List.length_take] at room
        rw [List.take_of_length_le (by omega), List.take_of_length_le (by simp; omega)]
      · rename_i full
        rw [List.length_take] at full
        rw [List.take_append_of_le_length (by omega)]

theorem scan_skips {above : List IndexEntry} {e : IndexEntry}
    (absent : e.dlqId ∉ above.map IndexEntry.dlqId) :
    f.scan pageSize (some e.dlqId) (above ++ e :: rest) false head [] =
      cut pageSize (rest.filterMap f.matching) := by
  induction above generalizing head with
  | nil =>
    rw [List.nil_append, scan, decide_eq_true rfl, scan_found (Nat.zero_le _), List.nil_append]
  | cons e' above ih =>
    rw [List.map_cons, List.mem_cons, not_or] at absent
    rw [List.cons_append, scan, decide_eq_false (by simpa using Ne.symm absent.1)]
    exact ih absent.2

/-- A page is cut from the records below the cursor that match. -/
theorem listFailedTaskRecords_eq {limit : Nat} (nodup : (index.map IndexEntry.dlqId).Nodup) :
    f.listFailedTaskRecords index cursor limit = cut (max 1 limit)
      ((below IndexEntry.dlqId (index.filter f.inRange) cursor).filterMap f.matching) := by
  unfold listFailedTaskRecords
  have nodup : ((index.filter f.inRange).map IndexEntry.dlqId).Nodup :=
    (List.filter_sublist.map IndexEntry.dlqId).nodup nodup
  cases cursor with
  | none => exact scan_found (Nat.zero_le _)
  | some a =>
    by_cases present : a ∈ (index.filter f.inRange).map IndexEntry.dlqId
    · obtain ⟨e, he, rfl⟩ := List.mem_map.mp present
      obtain ⟨above, rest, split⟩ := List.append_of_mem he
      have absent : e.dlqId ∉ above.map IndexEntry.dlqId := by
        rw [split, List.map_append, List.map_cons, List.nodup_append] at nodup
        exact fun mem => nodup.2.2 _ mem _ List.mem_cons_self rfl
      rw [split, below_split absent]
      exact scan_skips absent
    · rw [below_of_absent present]
      have nothing : ([] : List FailedRecord).take (max 1 limit + 1) = [] := List.take_nil
      rw [← nothing]
      exact scan_absent present

/-- The records below one that matches are those that come after it. -/
theorem matching_below {u v : List FailedRecord} {r : FailedRecord}
    (nodup : (index.map IndexEntry.dlqId).Nodup) (suffix : rest <:+ index)
    (split : rest.filterMap f.matching = u ++ r :: v) :
    (below IndexEntry.dlqId index (some r.dlqId)).filterMap f.matching = v ∧
      r.dlqId ∈ index.map IndexEntry.dlqId :=
  filterMap_below (fun e r here => e.record_id r (Option.filter_eq_some_iff.mp here).1) nodup suffix
    split

end FailedTaskFilters

end Relayna.Dlq
