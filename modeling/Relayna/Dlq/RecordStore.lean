import Mathlib.Data.String.Basic
import Relayna.Dlq.FailedTaskIndex
import Relayna.Foundation.Chunks
import Relayna.Foundation.SortedSet

/-!
# The dead-letter store

`RedisDLQStore` keeps a record under a key of its own, its id in a list whose head is the newest,
and its id in a sorted set by the time of the failure. Only `add` writes to the list and nothing
takes an id out of it; `delete` removes the record and the entry of the sorted set.

Both listings read ids in chunks and load the records of a chunk. The id of a record is a digest,
so it is not empty.
-/
namespace Relayna.Dlq

open Chunks Pages

structure StoredRecord extends FailedRecord where
  reason : String
  state : DLQRecordState
  replayCount : Int
  replayedAt : Option Int
  replayTargetQueueName : Option String
  failedScore : Int
  dlqId_ne : dlqId ≠ ""

/-- The list is `ids`, the sorted set is `index`. -/
structure RecordStore where
  ids : List String
  index : SortedSet String
  records : String → Option StoredRecord
  nodup : ids.Nodup
  named : ∀ id r, records id = some r → r.dlqId = id

namespace RecordStore

def init : RecordStore :=
  ⟨[], .empty, fun _ => none, List.nodup_nil, fun _ _ h => (Option.some_ne_none _ h.symm).elim⟩

/-- `SET` of a record under its key. -/
def set (s : RecordStore) (r : StoredRecord) : RecordStore where
  ids := s.ids
  index := s.index
  records := Function.update s.records r.dlqId (some r)
  nodup := s.nodup
  named id r' h := by
    by_cases same : id = r.dlqId
    · subst same
      rw [Function.update_self] at h
      rw [← Option.some.inj h]
    · rw [Function.update_of_ne same] at h
      exact s.named id r' h

def add (s : RecordStore) (r : StoredRecord) (fresh : r.dlqId ∉ s.ids) : RecordStore :=
  { s.set r with
    ids := r.dlqId :: s.ids
    index := s.index.add r.dlqId r.failedScore
    nodup := List.nodup_cons.mpr ⟨fresh, s.nodup⟩ }

def update (s : RecordStore) (r : StoredRecord) : RecordStore :=
  { s.set r with index := s.index.add r.dlqId r.failedScore }

def delete (s : RecordStore) (dlqId : String) : RecordStore where
  ids := s.ids
  index := s.index.remove dlqId
  records := Function.update s.records dlqId none
  nodup := s.nodup
  named id r h := by
    by_cases same : id = dlqId
    · subst same
      rw [Function.update_self] at h
      cases h
    · rw [Function.update_of_ne same] at h
      exact s.named id r h

end RecordStore

/-! ## `list_records` -/

/-- `state` may be a member of the enumeration or its value. -/
structure RecordFilters where
  queueName : Option String := none
  taskId : Option String := none
  reason : Option String := none
  sourceQueueName : Option String := none
  state : Option String := none

/-- The `ValueError` of `DLQRecordState(state)`. -/
inductive StateError where
  | notAState (state : String)
  deriving DecidableEq, Repr

namespace RecordFilters

/-- `normalized_state`: no filter, the empty text, which is no record's state, or a state. -/
def normalizedState (f : RecordFilters) : Except StateError (Option (Option DLQRecordState)) :=
  match f.state with
  | none => .ok none
  | some "" => .ok (some none)
  | some "dead_lettered" => .ok (some (some .deadLettered))
  | some "replayed" => .ok (some (some .replayed))
  | some state => .error (.notAState state)

def accepts (f : RecordFilters) (state : Option (Option DLQRecordState)) (r : StoredRecord) :
    Bool :=
  FailedTaskFilters.asked f.queueName (some r.queueName) &&
  FailedTaskFilters.asked f.taskId r.taskId && FailedTaskFilters.asked f.reason (some r.reason) &&
  FailedTaskFilters.asked f.sourceQueueName (some r.sourceQueueName) &&
  state.all (· == some r.state)

end RecordFilters

/-- `max(1, limit)`. -/
def pageSize (limit : Int) : Nat := (max 1 limit).toNat

/-- `max(100, page_size * 2)`. -/
def chunkSize (size : Nat) : Nat := max 100 (size * 2)

theorem pageSize_pos (limit : Int) : 0 < pageSize limit := by
  unfold pageSize
  omega

theorem chunkSize_pos (size : Nat) : 0 < chunkSize size := by
  unfold chunkSize
  omega

namespace RecordFilters

def reader (f : RecordFilters) (state : Option (Option DLQRecordState)) (size : Nat) :
    Reader String StoredRecord (List StoredRecord) :=
  collector (f.accepts state) size (chunkSize size) (chunkSize_pos size)

end RecordFilters

namespace RecordStore

/-- Where the listing begins: behind the position of the cursor, if `LPOS` finds it. -/
def startIndex (s : RecordStore) (cursor : Option String) : Nat :=
  match cursor with
  | none => 0
  | some c =>
    if c = "" then 0
    else match s.ids.idxOf? c with
      | some position => position + 1
      | none => 0

def listRecords (s : RecordStore) (f : RecordFilters) (limit : Int) (cursor : Option String) :
    Except StateError (List StoredRecord × Option String) :=
  f.normalizedState.map fun state =>
    cutPage (·.dlqId) (pageSize limit)
      ((f.reader state (pageSize limit)).read s.ids s.records (s.startIndex cursor) [])

end RecordStore

/-! ## `list_failed_task_records` -/

/-- `cursor_found`, `head` and `items`. -/
structure FailedScan where
  found : Bool
  head : List FailedRecord
  items : List FailedRecord

namespace FailedTaskFilters

def step (f : FailedTaskFilters) (size : Nat) (cursor : Option String)
    (entry : String × Option FailedRecord) (s : FailedScan) : FailedScan :=
  if s.found then
    match entry.2.filter f.accepts with
    | some r => { s with items := s.items ++ [r] }
    | none => s
  else
    { s with
      found := some entry.1 = cursor
      head := match entry.2.filter f.accepts with
        | some r => if s.head.length ≤ size then s.head ++ [r] else s.head
        | none => s.head }

def reader (f : FailedTaskFilters) (size : Nat) (cursor : Option String) :
    Reader String FailedRecord FailedScan where
  step := f.step size cursor
  full s := size < s.items.length
  chunk := chunkSize size
  chunk_pos := chunkSize_pos size

/-- The scores of a listing. -/
def window (f : FailedTaskFilters) (score : Int) : Bool :=
  f.failedFrom.all (· ≤ score) && f.failedTo.all (score ≤ ·)

end FailedTaskFilters

/-- The page is cut from `head` when the cursor has not been found. -/
def FailedScan.finish (size : Nat) (s : FailedScan) : List FailedRecord × Option String :=
  FailedTaskFilters.cut size (if s.found then s.items else s.head)

namespace RecordStore

/-- The ids that `ZREVRANGEBYSCORE` answers for the window of a listing. -/
def failedIds (s : RecordStore) (f : FailedTaskFilters) : List String :=
  (s.index.revRange f.window).map Prod.fst

def failedRecord (s : RecordStore) (dlqId : String) : Option FailedRecord :=
  (s.records dlqId).map StoredRecord.toFailedRecord

def listFailedTaskRecords (s : RecordStore) (f : FailedTaskFilters) (limit : Int)
    (cursor : Option String) : List FailedRecord × Option String :=
  ((f.reader (pageSize limit) cursor).read (s.failedIds f) s.failedRecord 0
    ⟨cursor.isNone, [], []⟩).finish (pageSize limit)

end RecordStore

end Relayna.Dlq
