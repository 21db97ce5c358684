import Relayna.Studio.Events

/-!
# The outbox of the PostgreSQL event store

`insert_event` writes an event and, in the same transaction, an outbox entry for each of its two
channels. `relay_once` locks a batch of undelivered entries, publishes them one by one and marks
them; `prune_expired` deletes expired events and entries that were delivered long ago.

Transactions run statement by statement under read committed isolation. What a transaction has
written is seen by the others once it commits; a statement that has to wait for another
transaction is a step that is refused until then. An entry that is already there makes the insert
of an entry do nothing, and an entry is kept longer than its event: `Fresh` is what has to hold
when an insert commits.
-/
namespace Relayna.Studio.Outbox

open Python Contracts Transition Events Observability

structure PostgresStudioEventStore where
  /-- `_event_dedupe_key`, `_parse_timestamp` and `ttl_seconds`. -/
  events : RedisStudioEventStore
  channelPrefix : String

structure EventRow where
  event : StudioControlPlaneEvent
  eventTimestamp : Option Int
  expiresAt : Option Int

/-- A row of `studio_outbox`, without its id. -/
structure Entry where
  channel : String
  payload : StudioControlPlaneEvent
  dedupeKey : String
  availableAt : Int
  deliveredAt : Option Int
  attemptCount : Nat
  lastError : Option String

namespace PostgresStudioEventStore

variable (c : PostgresStudioEventStore)

def serviceChannel (serviceId : String) : String :=
  c.channelPrefix ++ ":channel:service:" ++ serviceId

def taskChannel (serviceId taskId : String) : String :=
  c.channelPrefix ++ ":channel:task:" ++ serviceId ++ ":" ++ taskId

def channels (e : StudioEventEnvelope) : List String :=
  [c.serviceChannel e.serviceId, c.taskChannel e.serviceId e.event.taskId]

/-- The advisory lock: the first eight bytes of the digest. -/
def lockId (e : StudioEventEnvelope) : List Char :=
  (c.events.text.sha256 ("event:" ++ e.taskScope)).toList.take 16

/-- `SELECT max(event_timestamp)` over the rows of the task. -/
def latest (events : List EventRow) (e : StudioEventEnvelope) : Option Int :=
  ((events.filter fun row => row.event.serviceId = e.serviceId ∧
    row.event.event.taskId = e.event.taskId).filterMap (·.eventTimestamp)).max?

/-- The row that `insert_event` writes. -/
def row (events : List EventRow) (now : Int) (e : StudioEventEnvelope) : EventRow :=
  let timestamp := e.event.timestamp.bind c.events.parseTimestamp
  { event :=
      { e with
        ingestedAt := now
        dedupeKey := c.events.dedupeKey e
        outOfOrder := timestamp.any fun t => (latest events e).any (t < ·) }
    eventTimestamp := timestamp
    expiresAt := c.events.deadline now }

end PostgresStudioEventStore

/-- The unique constraints of `studio_events`. -/
def EventRow.conflicts (a b : EventRow) : Bool :=
  a.event.dedupeKey == b.event.dedupeKey ||
    (a.event.event.eventId.isSome && a.event.event.eventId == b.event.event.eventId &&
      a.event.serviceId == b.event.serviceId &&
      a.event.event.sourceKind == b.event.event.sourceKind)

/-- A new row, with its server defaults. -/
def Entry.new (event : StudioControlPlaneEvent) (now : Int) (channel : String) : Entry where
  channel := channel
  payload := event
  dedupeKey := event.dedupeKey
  availableAt := now
  deliveredAt := none
  attemptCount := 0
  lastError := none

/-- The row after a publish that succeeded. -/
def Entry.delivered (e : Entry) (now : Int) : Entry :=
  { e with deliveredAt := some now, attemptCount := e.attemptCount + 1, lastError := none }

/-- The row after a publish that raised. -/
def Entry.failed (e : Entry) (now : Int) (error : String) : Entry :=
  let attempts := e.attemptCount + 1
  { e with
    attemptCount := attempts
    lastError := some (String.ofList (error.toList.take 2000))
    availableAt := now + (min 60 (Nat.pow 2 (min attempts 6)) : Nat) * 1000000 }

inductive Result where
  | inserted (isNew : Bool)
  | relayed (delivered : Nat)
  | pruned (events : Nat)
  | raised
  deriving DecidableEq, Repr

/-- What a transaction has done so far. -/
inductive Tx where
  /-- Awaits the advisory lock. -/
  | insert (e : StudioEventEnvelope) (now : Int)
  | locked (e : StudioEventEnvelope) (now : Int)
  | selected (row : EventRow)
  | eventInserted (row : EventRow)
  | outboxInserted (row : EventRow) (entries : List (Nat × Entry))
  | relayStarted
  /-- `todo` are the rows of the batch that were not published, `done` those that were updated. -/
  | relay (todo done : List (Nat × Entry))
  /-- The row was published, or publishing it raised `error`. -/
  | published (row : Nat × Entry) (error : Option String) (todo done : List (Nat × Entry))
  | prune (now : Int)
  | eventsPruned (now : Int) (events : List EventRow)
  | outboxPruned (events : List EventRow) (ids : List Nat)
  | ended (result : Result)

namespace Tx

/-- The envelope whose advisory lock is held. -/
def holds : Tx → Option StudioEventEnvelope
  | .locked e _ => some e
  | .selected row | .eventInserted row | .outboxInserted row _ =>
    some row.event.toStudioEventEnvelope
  | _ => none

/-- The event that was inserted. -/
def newEvent : Tx → Option EventRow
  | .eventInserted row | .outboxInserted row _ => some row
  | _ => none

def newEntries : Tx → List (Nat × Entry)
  | .outboxInserted _ entries => entries
  | _ => []

def deletedEvents : Tx → List EventRow
  | .eventsPruned _ events | .outboxPruned events _ => events
  | _ => []

def deletedIds : Tx → List Nat
  | .outboxPruned _ ids => ids
  | _ => []

/-- The batch of a relay. -/
def batch : Tx → List (Nat × Entry)
  | .relay todo done => todo ++ done
  | .published row _ todo done => row :: (todo ++ done)
  | _ => []

/-- The rows of the batch that were not updated yet. -/
def unmarked : Tx → List (Nat × Entry)
  | .relay todo _ => todo
  | .published row _ todo _ => row :: todo
  | _ => []

/-- The outbox rows that the transaction has locked or written. -/
def locks (tx : Tx) : List Nat := tx.batch.map (·.1) ++ tx.deletedIds ++ tx.newEntries.map (·.1)

/-- The rows whose publish has succeeded. -/
def sent : Tx → List Nat
  | .relay _ done => (done.filter (·.2.deliveredAt.isSome)).map (·.1)
  | .published row none _ done => row.1 :: (done.filter (·.2.deliveredAt.isSome)).map (·.1)
  | .published _ (some _) _ done => (done.filter (·.2.deliveredAt.isSome)).map (·.1)
  | _ => []

end Tx

/-- A message that Redis has taken, with the transaction that sent it. -/
structure Publication where
  relay : Nat
  id : Nat
  channel : String
  payload : StudioControlPlaneEvent

/-- A call of `insert_event` that returned `True`, and how many messages were published before. -/
structure Insertion where
  event : StudioControlPlaneEvent
  publishedBefore : Nat

/-- The committed rows, the transactions, and what has been published. -/
structure Db where
  events : List EventRow := []
  outbox : Nat → Option Entry := fun _ => none
  nextId : Nat := 0
  txs : List Tx := []
  published : List Publication := []
  insertions : List Insertion := []

namespace Db

def entries (s : Db) : List (Nat × Entry) :=
  (List.range s.nextId).filterMap fun id => (s.outbox id).map (id, ·)

/-- Another transaction has locked or written the row. -/
def lockedRow (s : Db) (id : Nat) : Bool := s.txs.any fun tx => id ∈ tx.locks

def sent (s : Db) (id : Nat) : Bool := s.txs.any fun tx => id ∈ tx.sent

def moved (s : Db) (n : Nat) (tx : Tx) : Db := { s with txs := s.txs.set n tx }

/-- The rows that `INSERT … ON CONFLICT DO NOTHING` adds. -/
def missing (s : Db) (key : String) (channels : List String) : List String :=
  channels.filter fun channel =>
    !s.entries.any fun e => e.2.channel == channel && e.2.dedupeKey == key

/-- A row with the channel and the key is being inserted or deleted by another transaction. -/
def conflictOpen (s : Db) (key : String) (channels : List String) : Bool :=
  s.txs.any fun tx =>
    tx.newEntries.any (fun e => e.2.dedupeKey == key && channels.contains e.2.channel) ||
      s.entries.any (fun e => decide (e.1 ∈ tx.deletedIds) && e.2.dedupeKey == key &&
        channels.contains e.2.channel)

end Db

inductive Step where
  | insertEvent (e : StudioEventEnvelope) (now : Int)
  | relayOnce
  | pruneExpired (now : Int)
  /-- The transaction's next statement, publish or commit. -/
  | statement (n : Nat) (now : Int)
  | publishRaises (n : Nat) (error : String)
  | rollback (n : Nat)

variable (c : PostgresStudioEventStore) (batchSize : Nat)

/-- `SELECT … FOR UPDATE SKIP LOCKED`. -/
def selectBatch (s : Db) (now : Int) : List (Nat × Entry) :=
  (s.entries.filter fun e =>
    e.2.deliveredAt.isNone && decide (e.2.availableAt ≤ now) && !s.lockedRow e.1).take batchSize

def statement (s : Db) (n : Nat) (now : Int) : Tx → Option Db
  | .insert e started =>
    if s.txs.any fun tx => tx.holds.any fun o => c.lockId o == c.lockId e then none
    else some (s.moved n (.locked e started))
  | .locked e started => some (s.moved n (.selected (c.row s.events started e)))
  | .selected row =>
    if s.txs.any fun tx => tx.newEvent.any row.conflicts || tx.deletedEvents.any row.conflicts
    then none
    else if s.events.any row.conflicts then some (s.moved n (.ended (.inserted false)))
    else some (s.moved n (.eventInserted row))
  | .eventInserted row =>
    let channels := c.channels row.event.toStudioEventEnvelope
    if s.conflictOpen row.event.dedupeKey channels then none
    else
      let added := (s.missing row.event.dedupeKey channels).map (Entry.new row.event now)
      let entries := (List.range' s.nextId added.length).zip added
      some { s.moved n (.outboxInserted row entries) with nextId := s.nextId + added.length }
  | .outboxInserted row entries =>
    some { s.moved n (.ended (.inserted true)) with
      events := s.events ++ [row]
      outbox := fun id => (entries.lookup id).or (s.outbox id)
      insertions := s.insertions ++ [⟨row.event, s.published.length⟩] }
  | .relayStarted => some (s.moved n (.relay (selectBatch batchSize s now) []))
  | .relay [] done =>
    some { s.moved n (.ended (.relayed (done.countP (·.2.deliveredAt.isSome)))) with
      outbox := fun id => (done.lookup id).or (s.outbox id) }
  | .relay (row :: todo) done =>
    some { s.moved n (.published row none todo done) with
      published := s.published ++ [⟨n, row.1, row.2.channel, row.2.payload⟩] }
  | .published row none todo done =>
    some (s.moved n (.relay todo ((row.1, row.2.delivered now) :: done)))
  | .published row (some error) todo done =>
    some (s.moved n (.relay todo ((row.1, row.2.failed now error) :: done)))
  | .prune started =>
    let expired := s.events.filter fun row => row.expiresAt.any (· ≤ started)
    if s.txs.any fun tx => tx.deletedEvents.any fun o =>
      expired.any (o.event.dedupeKey == ·.event.dedupeKey)
    then none
    else some (s.moved n (.eventsPruned started expired))
  | .eventsPruned started events =>
    let old := s.entries.filter fun e =>
      e.2.deliveredAt.any (· ≤ started - 7 * 86400 * 1000000)
    if old.any fun e => s.lockedRow e.1 then none
    else some (s.moved n (.outboxPruned events (old.map (·.1))))
  | .outboxPruned events ids =>
    some { s.moved n (.ended (.pruned events.length)) with
      events := s.events.filter fun row => !events.any (·.event.dedupeKey == row.event.dedupeKey)
      outbox := fun id => if id ∈ ids then none else s.outbox id }
  | .ended _ => none

def next (s : Db) : Step → Option Db
  | .insertEvent e now => some { s with txs := s.txs ++ [.insert e now] }
  | .relayOnce => some { s with txs := s.txs ++ [.relayStarted] }
  | .pruneExpired now => some { s with txs := s.txs ++ [.prune now] }
  | .statement n now => s.txs[n]?.bind (statement c batchSize s n now)
  | .publishRaises n error =>
    match s.txs[n]? with
    | some (.relay (row :: todo) done) => some (s.moved n (.published row (some error) todo done))
    | _ => none
  | .rollback n =>
    match s.txs[n]? with
    | none | some (.ended _) => none
    | some _ => some (s.moved n (.ended .raised))

def machine : Machine Db Step := ⟨next c batchSize⟩

/-! ## The rows that a transaction has locked -/

/-- The same entry, whatever the relays have noted in it. -/
structure Entry.Same (a b : Entry) : Prop where
  channel : a.channel = b.channel
  payload : a.payload = b.payload
  dedupeKey : a.dedupeKey = b.dedupeKey

/-- What the transaction knows of the rows it has locked or written, and that it has published
what it says it has. -/
structure Tx.Ok (s : Db) (n : Nat) (tx : Tx) : Prop where
  batch : ∀ e ∈ tx.batch, ∃ r, s.outbox e.1 = some r ∧ r.deliveredAt = none ∧ e.2.Same r
  deleted : ∀ id ∈ tx.deletedIds, ∃ r, s.outbox id = some r ∧ r.deliveredAt.isSome
  new : ∀ e ∈ tx.newEntries, s.outbox e.1 = none ∧ e.1 < s.nextId ∧
    ∃ row now channel, tx.newEvent = some row ∧ e.2 = .new row.event now channel
  newIds : (tx.newEntries.map (·.1)).Nodup
  unmarked : ∀ e ∈ tx.unmarked, e.2.deliveredAt = none
  sent : ∀ id ∈ tx.sent, ∃ p ∈ s.published, p.relay = n ∧ p.id = id ∧
    ∃ r, s.outbox id = some r ∧ p.channel = r.channel ∧ p.payload = r.payload

structure Db.Sound (s : Db) : Prop where
  ok : ∀ (n : Nat) (tx : Tx), s.txs[n]? = some tx → tx.Ok s n
  exclusive : ∀ (n m : Nat) (tx tx' : Tx) (id : Nat), s.txs[n]? = some tx →
    s.txs[m]? = some tx' → id ∈ tx.locks → id ∈ tx'.locks → n = m
  entry : ∀ id r, s.outbox id = some r → id < s.nextId ∧ r.payload.dedupeKey = r.dedupeKey
  before : ∀ i ∈ s.insertions, i.publishedBefore ≤ s.published.length

theorem Tx.mem_locks {tx : Tx} {id : Nat} :
    id ∈ tx.locks ↔
      id ∈ tx.batch.map (·.1) ∨ id ∈ tx.deletedIds ∨ id ∈ tx.newEntries.map (·.1) := by
  simp only [Tx.locks, List.mem_append, or_assoc]

theorem Tx.sent_subset {tx : Tx} {id : Nat} (h : id ∈ tx.sent) : id ∈ tx.locks := by
  refine Tx.mem_locks.mpr (Or.inl ?_)
  unfold Tx.sent at h
  split at h
  case h_1 todo done =>
    obtain ⟨e, he, rfl⟩ := List.mem_map.mp h
    exact List.mem_map_of_mem (List.mem_append_right _ (List.mem_of_mem_filter he))
  case h_2 row todo done =>
    obtain rfl | h := List.mem_cons.mp h
    · exact List.mem_map_of_mem List.mem_cons_self
    · obtain ⟨e, he, rfl⟩ := List.mem_map.mp h
      exact List.mem_map_of_mem
        (List.mem_cons_of_mem _ (List.mem_append_right _ (List.mem_of_mem_filter he)))
  case h_3 row error todo done =>
    obtain ⟨e, he, rfl⟩ := List.mem_map.mp h
    exact List.mem_map_of_mem
      (List.mem_cons_of_mem _ (List.mem_append_right _ (List.mem_of_mem_filter he)))
  case h_4 => simp at h

theorem Tx.unmarked_subset {tx : Tx} {e : Nat × Entry} (h : e ∈ tx.unmarked) : e.1 ∈ tx.locks := by
  refine Tx.mem_locks.mpr (Or.inl (List.mem_map_of_mem ?_))
  cases tx with
  | relay todo done => exact List.mem_append_left _ h
  | published row error todo done =>
    obtain rfl | h := List.mem_cons.mp h
    · exact List.mem_cons_self
    · exact List.mem_cons_of_mem _ (List.mem_append_left _ h)
  | _ => simp [Tx.unmarked] at h

/-- What a transaction knows depends on the rows it has locked. -/
theorem Tx.Ok.frame {s t : Db} {n : Nat} {tx : Tx} (h : tx.Ok s n)
    (same : ∀ id ∈ tx.locks, t.outbox id = s.outbox id) (later : s.nextId ≤ t.nextId)
    (more : ∃ ps, t.published = s.published ++ ps) : tx.Ok t n where
  batch e he := by
    rw [same e.1 (Tx.mem_locks.mpr (Or.inl (List.mem_map_of_mem he)))]
    exact h.batch e he
  deleted id hid := by
    rw [same id (Tx.mem_locks.mpr (Or.inr (Or.inl hid)))]
    exact h.deleted id hid
  new e he := by
    rw [same e.1 (Tx.mem_locks.mpr (Or.inr (Or.inr (List.mem_map_of_mem he))))]
    obtain ⟨absent, old, row⟩ := h.new e he
    exact ⟨absent, old.trans_le later, row⟩
  newIds := h.newIds
  unmarked := h.unmarked
  sent id hid := by
    obtain ⟨ps, hps⟩ := more
    rw [same id (Tx.sent_subset hid), hps]
    obtain ⟨p, hp, rest⟩ := h.sent id hid
    exact ⟨p, List.mem_append_left _ hp, rest⟩

/-- One transaction moves: it locks rows that were free, and changes only rows it had locked. -/
theorem Db.Sound.move {s t : Db} {n : Nat} {tx tx' : Tx} (h : s.Sound) (hn : s.txs[n]? = some tx)
    (ht : t.txs = s.txs.set n tx')
    (free : ∀ id ∈ tx'.locks, id ∈ tx.locks ∨ s.lockedRow id = false)
    (frame : ∀ id, id ∉ tx.locks → t.outbox id = s.outbox id) (later : s.nextId ≤ t.nextId)
    (more : ∃ ps, t.published = s.published ++ ps) (ok : tx'.Ok t n)
    (entry : ∀ id r, t.outbox id = some r → id < t.nextId ∧ r.payload.dedupeKey = r.dedupeKey)
    (before : ∀ i ∈ t.insertions, i.publishedBefore ≤ t.published.length) : t.Sound where
  ok m other hm := by
    rw [ht] at hm
    obtain ⟨rfl, rfl⟩ | ⟨hne, hm⟩ := set_some_cases hm
    · exact ok
    · refine (h.ok m other hm).frame (fun id hid => frame id fun hid' => ?_) later more
      exact hne (h.exclusive m n other tx id hm hn hid hid')
  exclusive m k a b id hm hk ha hb := by
    -- A row that the transaction has just locked was locked by no other.
    have apart : ∀ j other, s.txs[j]? = some other → id ∈ tx'.locks → id ∈ other.locks → j = n := by
      intro j other hj hid hid'
      obtain held | unheld := free id hid
      · exact h.exclusive j n other tx id hj hn hid' held
      · exfalso
        simp only [Db.lockedRow, List.any_eq_false, decide_eq_true_eq] at unheld
        exact unheld other (List.mem_of_getElem? hj) hid'
    rw [ht] at hm hk
    obtain ⟨rfl, rfl⟩ | ⟨-, hm'⟩ := set_some_cases hm
    · obtain ⟨rfl, -⟩ | ⟨-, hk'⟩ := set_some_cases hk
      · rfl
      · exact (apart k b hk' ha hb).symm
    · obtain ⟨rfl, rfl⟩ | ⟨-, hk'⟩ := set_some_cases hk
      · exact apart m a hm' hb ha
      · exact h.exclusive m k a b id hm' hk' ha hb
  entry := entry
  before := before

theorem Tx.Ok.idle {s : Db} {n : Nat} {tx : Tx} (h : tx.locks = []) : tx.Ok s n := by
  have none : ∀ id, id ∉ tx.locks := by simp [h]
  exact
    { batch := fun e he => absurd (Tx.mem_locks.mpr (Or.inl (List.mem_map_of_mem he))) (none e.1)
      deleted := fun id hid => absurd (Tx.mem_locks.mpr (Or.inr (Or.inl hid))) (none id)
      new := fun e he =>
        absurd (Tx.mem_locks.mpr (Or.inr (Or.inr (List.mem_map_of_mem he)))) (none e.1)
      newIds := by
        have empty : tx.newEntries.map (·.1) = [] := (List.append_eq_nil_iff.mp h).2
        simp [empty]
      unmarked := fun e he => absurd (Tx.unmarked_subset he) (none e.1)
      sent := fun id hid => absurd (Tx.sent_subset hid) (none id) }

/-- A transaction that writes nothing yet. -/
theorem Db.Sound.start {s : Db} (h : s.Sound) {tx : Tx} (idle : tx.locks = []) :
    ({ s with txs := s.txs ++ [tx] } : Db).Sound := by
  refine ⟨fun m other hm => ?_, fun m k a b id hm hk ha hb => ?_, h.entry, h.before⟩
  · obtain hm | rfl := append_some_cases hm
    · exact (h.ok m other hm).frame (fun _ _ => rfl) le_rfl ⟨[], by simp⟩
    · exact .idle idle
  · obtain hm | rfl := append_some_cases hm
    · obtain hk | rfl := append_some_cases hk
      · exact h.exclusive m k a b id hm hk ha hb
      · simp [idle] at hb
    · simp [idle] at ha

theorem Db.mem_entries {s : Db} {e : Nat × Entry} :
    e ∈ s.entries ↔ e.1 < s.nextId ∧ s.outbox e.1 = some e.2 := by
  simp only [Db.entries, List.mem_filterMap, List.mem_range, Option.map_eq_some_iff]
  constructor
  · rintro ⟨id, hid, r, hr, rfl⟩
    exact ⟨hid, hr⟩
  · rintro ⟨hid, hr⟩
    exact ⟨e.1, hid, e.2, hr, rfl⟩

theorem Db.Sound.lt_nextId {s : Db} (h : s.Sound) {id : Nat} (locked : s.lockedRow id = true) :
    id < s.nextId := by
  obtain ⟨tx, htx, hid⟩ := List.any_eq_true.mp locked
  obtain ⟨n, hn⟩ := List.getElem?_of_mem htx
  have ok := h.ok n tx hn
  obtain hb | hd | hw := Tx.mem_locks.mp (of_decide_eq_true hid)
  · obtain ⟨e, he, rfl⟩ := List.mem_map.mp hb
    obtain ⟨r, hr, -⟩ := ok.batch e he
    exact (h.entry _ r hr).1
  · obtain ⟨r, hr, -⟩ := ok.deleted id hd
    exact (h.entry _ r hr).1
  · obtain ⟨e, he, rfl⟩ := List.mem_map.mp hw
    exact (ok.new e he).2.1

/-- A transaction ends without having written anything that it keeps. -/
theorem Db.Sound.leave {s : Db} {n : Nat} {tx tx' : Tx} (h : s.Sound) (hn : s.txs[n]? = some tx)
    (idle : tx'.locks = []) : (s.moved n tx').Sound :=
  h.move hn rfl (by simp [idle]) (fun _ _ => rfl) le_rfl ⟨[], by simp [Db.moved]⟩ (.idle idle)
    h.entry h.before

/-- Every new row has an id of its own. -/
theorem mem_zip_range' {α : Type} {start : Nat} {l : List α} {e : Nat × α}
    (h : e ∈ (List.range' start l.length).zip l) :
    start ≤ e.1 ∧ e.1 < start + l.length ∧ e.2 ∈ l := by
  have hid := List.mem_range'_1.mp (List.of_mem_zip (a := e.1) (b := e.2) h).1
  exact ⟨hid.1, hid.2, (List.of_mem_zip (a := e.1) (b := e.2) h).2⟩

theorem Db.Sound.insertOutbox {s : Db} {n : Nat} {row : EventRow} {now : Int} (h : s.Sound)
    (hn : s.txs[n]? = some (.eventInserted row)) (channels : List String) :
    ({ s.moved n (.outboxInserted row ((List.range' s.nextId channels.length).zip
          (channels.map (Entry.new row.event now)))) with
        nextId := s.nextId + channels.length } : Db).Sound := by
  have fresh : ∀ e ∈ (List.range' s.nextId channels.length).zip
      (channels.map (Entry.new row.event now)),
      s.nextId ≤ e.1 ∧ e.1 < s.nextId + channels.length ∧
        ∃ channel, e.2 = .new row.event now channel := by
    intro e he
    rw [← List.length_map (f := Entry.new row.event now)] at he ⊢
    obtain ⟨ge, lt, mem⟩ := mem_zip_range' he
    obtain ⟨channel, -, hc⟩ := List.mem_map.mp mem
    exact ⟨ge, lt, channel, hc.symm⟩
  refine h.move hn rfl ?_ (fun _ _ => rfl) (Nat.le_add_right ..) ⟨[], by simp [Db.moved]⟩ ?_ ?_
    h.before
  · intro id hid
    right
    rw [Bool.eq_false_iff]
    intro locked
    simp only [Tx.mem_locks, Tx.batch, Tx.deletedIds, Tx.newEntries, List.map_nil,
      List.not_mem_nil, false_or] at hid
    obtain ⟨e, he, rfl⟩ := List.mem_map.mp hid
    exact absurd (h.lt_nextId locked) (not_lt.mpr (fresh e he).1)
  · refine ⟨by simp [Tx.batch], by simp [Tx.deletedIds], fun e he => ?_, ?_,
      by simp [Tx.unmarked], by simp [Tx.sent]⟩
    rotate_left
    · simp only [Tx.newEntries]
      rw [List.map_fst_zip (by simp)]
      exact List.nodup_range'
    obtain ⟨ge, lt, channel, hc⟩ := fresh e he
    refine ⟨?_, lt, row, now, channel, rfl, hc⟩
    change s.outbox e.1 = none
    by_contra present
    obtain ⟨r, hr⟩ := Option.ne_none_iff_exists'.mp present
    exact absurd (h.entry e.1 r hr).1 (not_lt.mpr ge)
  · intro id r hr
    obtain ⟨lt, key⟩ := h.entry id r hr
    exact ⟨lt.trans_le (Nat.le_add_right ..), key⟩

theorem mem_of_lookup {α : Type} {l : List (Nat × α)} {id : Nat} {a : α}
    (h : l.lookup id = some a) : (id, a) ∈ l := by
  obtain ⟨before, after, rfl, -⟩ := List.lookup_eq_some_iff.mp h
  simp

theorem lookup_of_mem {α : Type} {l : List (Nat × α)} (nodup : (l.map (·.1)).Nodup) {e : Nat × α}
    (h : e ∈ l) : l.lookup e.1 = some e.2 := by
  induction l with
  | nil => cases h
  | cons first l ih =>
    obtain ⟨id, a⟩ := first
    rw [List.map_cons, List.nodup_cons] at nodup
    obtain rfl | h := List.mem_cons.mp h
    · simp
    · have ne : e.1 ≠ id := fun same => nodup.1 (List.mem_map.mpr ⟨e, h, same⟩)
      rw [List.lookup_cons, beq_false_of_ne ne]
      exact ih nodup.2 h

theorem lookup_eq_none_of_not_mem {α : Type} {l : List (Nat × α)} {id : Nat}
    (h : id ∉ l.map (·.1)) : l.lookup id = none := by
  rw [List.lookup_eq_none_iff]
  intro e he
  have ne : id ≠ e.1 := fun same => h (same ▸ List.mem_map_of_mem he)
  simpa using ne

theorem Db.Sound.commitInsert {s : Db} {n : Nat} {row : EventRow} {entries : List (Nat × Entry)}
    (h : s.Sound) (hn : s.txs[n]? = some (.outboxInserted row entries)) :
    ({ s.moved n (.ended (.inserted true)) with
        events := s.events ++ [row]
        outbox := fun id => (entries.lookup id).or (s.outbox id)
        insertions := s.insertions ++ [⟨row.event, s.published.length⟩] } : Db).Sound := by
  have ok := h.ok n _ hn
  refine h.move hn rfl (by simp [Tx.locks, Tx.batch, Tx.deletedIds, Tx.newEntries]) ?_ le_rfl
    ⟨[], by simp [Db.moved]⟩ (.idle rfl) ?_ ?_
  · intro id hid
    have absent : id ∉ entries.map (·.1) := fun hm => hid (Tx.mem_locks.mpr (Or.inr (Or.inr hm)))
    simp [lookup_eq_none_of_not_mem absent]
  · intro id r hr
    change id < s.nextId ∧ _
    cases hl : entries.lookup id with
    | some added =>
      obtain rfl : added = r := by simpa [hl] using hr
      obtain ⟨-, lt, row', now, channel, -, rfl⟩ := ok.new (id, added) (mem_of_lookup hl)
      exact ⟨lt, rfl⟩
    | none => exact h.entry id r (by simpa [hl] using hr)
  · intro i hi
    obtain hi | hi := List.mem_append.mp hi
    · exact h.before i hi
    · rw [List.mem_singleton.mp hi]
      exact le_rfl

/-! ## A relay -/

theorem Entry.Same.refl (e : Entry) : e.Same e := ⟨rfl, rfl, rfl⟩

theorem Entry.Same.delivered {e r : Entry} (h : e.Same r) (now : Int) : (e.delivered now).Same r :=
  ⟨h.channel, h.payload, h.dedupeKey⟩

theorem Entry.Same.failed {e r : Entry} (h : e.Same r) (now : Int) (error : String) :
    (e.failed now error).Same r :=
  ⟨h.channel, h.payload, h.dedupeKey⟩

theorem Db.Sound.select {s : Db} {n : Nat} (h : s.Sound) (hn : s.txs[n]? = some .relayStarted)
    (batchSize : Nat) (now : Int) :
    (s.moved n (.relay (selectBatch batchSize s now) [])).Sound := by
  have chosen : ∀ e ∈ selectBatch batchSize s now,
      s.outbox e.1 = some e.2 ∧ e.2.deliveredAt = none ∧ s.lockedRow e.1 = false := by
    intro e he
    obtain ⟨listed, due⟩ := List.mem_filter.mp (List.mem_of_mem_take he)
    simp only [Bool.and_eq_true, Option.isNone_iff_eq_none, Bool.not_eq_true'] at due
    exact ⟨(Db.mem_entries.mp listed).2, due.1.1, due.2⟩
  refine h.move hn rfl ?_ (fun _ _ => rfl) le_rfl ⟨[], by simp [Db.moved]⟩ ?_ h.entry h.before
  · intro id hid
    simp only [Tx.mem_locks, Tx.batch, Tx.deletedIds, Tx.newEntries, List.map_nil,
      List.not_mem_nil, or_false, List.append_nil] at hid
    obtain ⟨e, he, rfl⟩ := List.mem_map.mp hid
    exact Or.inr (chosen e he).2.2
  · refine ⟨fun e he => ?_, by simp [Tx.deletedIds], by simp [Tx.newEntries],
      by simp [Tx.newEntries], fun e he => (chosen e he).2.1, by simp [Tx.sent]⟩
    obtain ⟨row, pending, -⟩ := chosen e (by simpa [Tx.batch] using he)
    exact ⟨e.2, row, pending, .refl _⟩

/-- A relay that has the same rows as before, and has published those it says it has. -/
theorem Db.Sound.relay {s : Db} {n : Nat} {tx : Tx} (h : s.Sound) (hn : s.txs[n]? = some tx)
    (tx' : Tx)
    (batch : ∀ e ∈ tx'.batch, ∃ e' ∈ tx.batch, e'.1 = e.1 ∧ ∀ r, e'.2.Same r → e.2.Same r)
    (unmarked : ∀ e ∈ tx'.unmarked, e ∈ tx.unmarked)
    (others : tx'.deletedIds = [] ∧ tx'.newEntries = []) (ps : List Publication)
    (sent : ∀ id ∈ tx'.sent, id ∈ tx.sent ∨
      ∃ p ∈ ps, ∃ e ∈ tx.batch, p = ⟨n, id, e.2.channel, e.2.payload⟩ ∧ e.1 = id) :
    ({ s.moved n tx' with published := s.published ++ ps } : Db).Sound := by
  have ok := h.ok n tx hn
  refine h.move hn rfl ?_ (fun _ _ => rfl) le_rfl ⟨ps, rfl⟩ ?_ h.entry ?_
  · intro id hid
    simp only [Tx.mem_locks, others, List.map_nil, List.not_mem_nil, or_false] at hid
    obtain ⟨e, he, rfl⟩ := List.mem_map.mp hid
    obtain ⟨e', he', same, -⟩ := batch e he
    exact Or.inl (Tx.mem_locks.mpr (Or.inl (same ▸ List.mem_map_of_mem he')))
  · refine ⟨fun e he => ?_, by simp [others], by simp [others], by simp [others],
      fun e he => ok.unmarked e (unmarked e he), fun id hid => ?_⟩
    · obtain ⟨e', he', same, keep⟩ := batch e he
      obtain ⟨r, hr, pending, hs⟩ := ok.batch e' he'
      exact ⟨r, same ▸ hr, pending, keep r hs⟩
    · obtain old | ⟨p, hp, e, he, rfl, rfl⟩ := sent id hid
      · obtain ⟨p, hp, rest⟩ := ok.sent id old
        exact ⟨p, List.mem_append_left _ hp, rest⟩
      · obtain ⟨r, hr, -, same⟩ := ok.batch e he
        exact ⟨_, List.mem_append_right _ hp, rfl, rfl, r, hr, same.channel, same.payload⟩
  · intro i hi
    exact (h.before i hi).trans (by simp)

theorem Db.Sound.publish {s : Db} {n : Nat} {row : Nat × Entry} {todo done : List (Nat × Entry)}
    (h : s.Sound) (hn : s.txs[n]? = some (.relay (row :: todo) done)) :
    ({ s.moved n (.published row none todo done) with
        published := s.published ++ [⟨n, row.1, row.2.channel, row.2.payload⟩] } : Db).Sound := by
  refine h.relay hn (.published row none todo done)
    (fun e he => ⟨e, he, rfl, fun _ same => same⟩) (fun e he => he) ⟨rfl, rfl⟩ _ ?_
  intro id hid
  obtain rfl | hid := List.mem_cons.mp hid
  · exact Or.inr ⟨_, List.mem_singleton_self _, row, List.mem_cons_self, rfl, rfl⟩
  · exact Or.inl hid

theorem Db.Sound.publishRaises {s : Db} {n : Nat} {row : Nat × Entry}
    {todo done : List (Nat × Entry)} (h : s.Sound)
    (hn : s.txs[n]? = some (.relay (row :: todo) done)) (error : String) :
    (s.moved n (.published row (some error) todo done)).Sound := by
  have step := h.relay hn (.published row (some error) todo done)
    (fun e he => ⟨e, he, rfl, fun _ same => same⟩) (fun e he => he) ⟨rfl, rfl⟩ []
    (fun id hid => Or.inl hid)
  simpa [Db.moved] using step

theorem Db.Sound.mark {s : Db} {n : Nat} {row : Nat × Entry} {error : Option String}
    {todo done : List (Nat × Entry)} (h : s.Sound)
    (hn : s.txs[n]? = some (.published row error todo done)) {marked : Entry}
    (same : ∀ r, row.2.Same r → marked.Same r)
    (sent : marked.deliveredAt.isSome → row.1 ∈ (Tx.published row error todo done).sent) :
    (s.moved n (.relay todo ((row.1, marked) :: done))).Sound := by
  have sub : ∀ id ∈ (done.filter (·.2.deliveredAt.isSome)).map (·.1),
      id ∈ (Tx.published row error todo done).sent := by
    intro id hid
    cases error with
    | none => exact List.mem_cons_of_mem _ hid
    | some error => exact hid
  have step := h.relay hn (.relay todo ((row.1, marked) :: done))
    (fun e he => ?_) (fun e he => List.mem_cons_of_mem _ he) ⟨rfl, rfl⟩ []
    (fun id hid => Or.inl ?_)
  · simpa [Db.moved] using step
  · simp only [Tx.batch, List.mem_append, List.mem_cons] at he
    obtain he | rfl | he := he
    · exact ⟨e, by simp [Tx.batch, he], rfl, fun _ same => same⟩
    · exact ⟨row, by simp [Tx.batch], rfl, same⟩
    · exact ⟨e, by simp [Tx.batch, he], rfl, fun _ same => same⟩
  · simp only [Tx.sent, List.filter_cons] at hid
    split_ifs at hid with delivered
    · obtain rfl | hid := List.mem_cons.mp hid
      · exact sent delivered
      · exact sub id hid
    · exact sub id hid

theorem Db.Sound.commitRelay {s : Db} {n : Nat} {done : List (Nat × Entry)} {result : Result}
    (h : s.Sound) (hn : s.txs[n]? = some (.relay [] done)) :
    ({ s.moved n (.ended result) with
        outbox := fun id => (done.lookup id).or (s.outbox id) } : Db).Sound := by
  have ok := h.ok n _ hn
  refine h.move hn rfl (by simp [Tx.locks, Tx.batch, Tx.deletedIds, Tx.newEntries]) ?_ le_rfl
    ⟨[], by simp [Db.moved]⟩ (.idle rfl) ?_ h.before
  · intro id hid
    have absent : id ∉ done.map (·.1) := fun hm => hid (Tx.mem_locks.mpr (Or.inl hm))
    simp [lookup_eq_none_of_not_mem absent]
  · intro id r hr
    change id < s.nextId ∧ _
    cases hl : done.lookup id with
    | some marked =>
      obtain rfl : marked = r := by simpa [hl] using hr
      obtain ⟨r, old, -, same⟩ := ok.batch (id, marked) (mem_of_lookup hl)
      obtain ⟨lt, key⟩ := h.entry id r old
      refine ⟨lt, ?_⟩
      rw [same.payload, same.dedupeKey, key]
    | none => exact h.entry id r (by simpa [hl] using hr)

/-! ## Pruning -/

theorem Db.Sound.pruneOutbox {s : Db} {n : Nat} {started : Int} {events : List EventRow}
    (h : s.Sound) (hn : s.txs[n]? = some (.eventsPruned started events))
    {old : List (Nat × Entry)} (free : ∀ e ∈ old, s.lockedRow e.1 = false)
    (delivered : ∀ e ∈ old, s.outbox e.1 = some e.2 ∧ e.2.deliveredAt.isSome) :
    (s.moved n (.outboxPruned events (old.map (·.1)))).Sound := by
  refine h.move hn rfl ?_ (fun _ _ => rfl) le_rfl ⟨[], by simp [Db.moved]⟩ ?_ h.entry h.before
  · intro id hid
    simp only [Tx.mem_locks, Tx.batch, Tx.deletedIds, Tx.newEntries, List.map_nil,
      List.not_mem_nil, or_false, false_or] at hid
    obtain ⟨e, he, rfl⟩ := List.mem_map.mp hid
    exact Or.inr (free e he)
  · refine ⟨by simp [Tx.batch], fun id hid => ?_, by simp [Tx.newEntries],
      by simp [Tx.newEntries], by simp [Tx.unmarked], by simp [Tx.sent]⟩
    obtain ⟨e, he, rfl⟩ := List.mem_map.mp hid
    exact ⟨e.2, delivered e he⟩

theorem Db.Sound.commitPrune {s : Db} {n : Nat} {deleted : List EventRow} {ids : List Nat}
    (h : s.Sound) (hn : s.txs[n]? = some (.outboxPruned deleted ids)) {result : Result}
    (events : List EventRow) :
    ({ s.moved n (.ended result) with
        events := events
        outbox := fun id => if id ∈ ids then none else s.outbox id } : Db).Sound := by
  refine h.move hn rfl (by simp [Tx.locks, Tx.batch, Tx.deletedIds, Tx.newEntries]) ?_ le_rfl
    ⟨[], by simp [Db.moved]⟩ (.idle rfl) ?_ h.before
  · intro id hid
    have kept : id ∉ ids := fun hm => hid (Tx.mem_locks.mpr (Or.inr (Or.inl hm)))
    simp [kept]
  · intro id r hr
    change id < s.nextId ∧ _
    by_cases hid : id ∈ ids
    · simp [hid] at hr
    · exact h.entry id r (by simpa [hid] using hr)

/-! ## Every step -/

/-- What a step of transaction `n` does to the outbox and to what was published. -/
inductive Moves (s : Db) (n : Nat) : Tx → Db → Prop where
  /-- The transaction goes on, or ends without an effect. -/
  | quiet {tx : Tx} (tx' : Tx) (nextId : Nat) (sent : ∀ id ∈ tx'.sent, id ∈ tx.sent) :
    Moves s n tx { s.moved n tx' with nextId }
  | published (row : Nat × Entry) (todo done : List (Nat × Entry)) :
    Moves s n (.relay (row :: todo) done)
      { s.moved n (.published row none todo done) with
        published := s.published ++ [⟨n, row.1, row.2.channel, row.2.payload⟩] }
  | inserted (row : EventRow) (entries : List (Nat × Entry)) :
    Moves s n (.outboxInserted row entries)
      { s.moved n (.ended (.inserted true)) with
        events := s.events ++ [row]
        outbox := fun id => (entries.lookup id).or (s.outbox id)
        insertions := s.insertions ++ [⟨row.event, s.published.length⟩] }
  | relayed (done : List (Nat × Entry)) (result : Result) :
    Moves s n (.relay [] done)
      { s.moved n (.ended result) with
        outbox := fun id => (done.lookup id).or (s.outbox id) }
  | pruned (deleted : List EventRow) (ids : List Nat) (result : Result) (events : List EventRow) :
    Moves s n (.outboxPruned deleted ids)
      { s.moved n (.ended result) with
        events
        outbox := fun id => if id ∈ ids then none else s.outbox id }

variable {c batchSize}

theorem statement_moves {s t : Db} {n : Nat} {now : Int} {tx : Tx} (ok : tx.Ok s n)
    (h : statement c batchSize s n now tx = some t) : Moves s n tx t := by
  cases tx with
  | insert e started =>
    simp only [statement] at h
    split_ifs at h
    exact Option.some.inj h ▸ .quiet (.locked e started) s.nextId (by simp [Tx.sent])
  | locked e started =>
    exact Option.some.inj h ▸ .quiet (.selected _) s.nextId (by simp [Tx.sent])
  | selected row =>
    simp only [statement] at h
    split_ifs at h
    · exact Option.some.inj h ▸ .quiet (.ended _) s.nextId (by simp [Tx.sent])
    · exact Option.some.inj h ▸ .quiet (.eventInserted row) s.nextId (by simp [Tx.sent])
  | eventInserted row =>
    simp only [statement] at h
    split_ifs at h
    exact Option.some.inj h ▸ .quiet (.outboxInserted row _) _ (by simp [Tx.sent])
  | outboxInserted row entries => exact Option.some.inj h ▸ .inserted row entries
  | relayStarted => exact Option.some.inj h ▸ .quiet (.relay _ _) s.nextId (by simp [Tx.sent])
  | relay todo done =>
    cases todo with
    | nil => exact Option.some.inj h ▸ .relayed done _
    | cons row todo => exact Option.some.inj h ▸ .published row todo done
  | published row error todo done =>
    cases error with
    | none =>
      refine Option.some.inj h ▸ .quiet (.relay todo _) s.nextId ?_
      simp [Tx.sent, Entry.delivered]
    | some error =>
      refine Option.some.inj h ▸ .quiet (.relay todo _) s.nextId ?_
      have pending : row.2.deliveredAt = none := ok.unmarked row List.mem_cons_self
      simp [Tx.sent, Entry.failed, pending]
  | prune started =>
    simp only [statement] at h
    split_ifs at h
    exact Option.some.inj h ▸ .quiet (.eventsPruned _ _) s.nextId (by simp [Tx.sent])
  | eventsPruned started events =>
    simp only [statement] at h
    split_ifs at h
    exact Option.some.inj h ▸ .quiet (.outboxPruned _ _) s.nextId (by simp [Tx.sent])
  | outboxPruned events ids => exact Option.some.inj h ▸ .pruned events ids _ _
  | ended result => cases h

theorem Db.Sound.statement {s t : Db} {n : Nat} {now : Int} {tx : Tx} (h : s.Sound)
    (hn : s.txs[n]? = some tx) (ht : statement c batchSize s n now tx = some t) : t.Sound := by
  cases tx with
  | insert e started =>
    simp only [Outbox.statement] at ht
    split_ifs at ht
    exact Option.some.inj ht ▸ h.leave hn rfl
  | locked e started => exact Option.some.inj ht ▸ h.leave hn rfl
  | selected row =>
    simp only [Outbox.statement] at ht
    split_ifs at ht
    · exact Option.some.inj ht ▸ h.leave hn rfl
    · exact Option.some.inj ht ▸ h.leave hn rfl
  | eventInserted row =>
    simp only [Outbox.statement] at ht
    split_ifs at ht
    obtain rfl := Option.some.inj ht
    rw [List.length_map]
    exact h.insertOutbox hn _
  | outboxInserted row entries => exact Option.some.inj ht ▸ h.commitInsert hn
  | relayStarted => exact Option.some.inj ht ▸ h.select hn batchSize now
  | relay todo done =>
    cases todo with
    | nil => exact Option.some.inj ht ▸ h.commitRelay hn
    | cons row todo => exact Option.some.inj ht ▸ h.publish hn
  | published row error todo done =>
    cases error with
    | none =>
      exact Option.some.inj ht ▸
        h.mark hn (fun r same => same.delivered now) (fun _ => List.mem_cons_self)
    | some error =>
      have pending : row.2.deliveredAt = none := (h.ok n _ hn).unmarked row List.mem_cons_self
      refine Option.some.inj ht ▸ h.mark hn (fun r same => same.failed now error) ?_
      simp [Entry.failed, pending]
  | prune started =>
    simp only [Outbox.statement] at ht
    split_ifs at ht
    exact Option.some.inj ht ▸ h.leave hn rfl
  | eventsPruned started events =>
    simp only [Outbox.statement] at ht
    split_ifs at ht with waits
    refine Option.some.inj ht ▸ h.pruneOutbox hn (fun e he => ?_) (fun e he => ?_)
    · simp only [List.any_eq_true, not_exists, not_and, Bool.not_eq_true] at waits
      exact waits e he
    · obtain ⟨listed, delivered⟩ := List.mem_filter.mp he
      refine ⟨(Db.mem_entries.mp listed).2, ?_⟩
      cases hd : e.2.deliveredAt with
      | none => simp [hd] at delivered
      | some at' => rfl
  | outboxPruned events ids => exact Option.some.inj ht ▸ h.commitPrune hn _
  | ended result => cases ht

theorem Db.Sound.next {s t : Db} {l : Step} (h : s.Sound) (hl : next c batchSize s l = some t) :
    t.Sound := by
  cases l with
  | insertEvent e now => exact Option.some.inj hl ▸ h.start rfl
  | relayOnce => exact Option.some.inj hl ▸ h.start rfl
  | pruneExpired now => exact Option.some.inj hl ▸ h.start rfl
  | statement n now =>
    obtain ⟨tx, hn, ht⟩ := Option.bind_eq_some_iff.mp hl
    exact h.statement hn ht
  | publishRaises n error =>
    simp only [Outbox.next] at hl
    split at hl
    case h_1 row todo done hn => exact Option.some.inj hl ▸ h.publishRaises hn error
    case h_2 => cases hl
  | rollback n =>
    simp only [Outbox.next] at hl
    split at hl
    case h_1 | h_2 => cases hl
    case h_3 tx _ hn => exact Option.some.inj hl ▸ h.leave hn rfl

/-- A step starts a transaction or moves one. -/
theorem next_moves {s t : Db} {l : Step} (h : s.Sound) (hl : next c batchSize s l = some t) :
    (∃ tx, tx.sent = [] ∧ t = { s with txs := s.txs ++ [tx] }) ∨
      ∃ n tx, s.txs[n]? = some tx ∧ Moves s n tx t ∧
        ∀ row entries, tx = .outboxInserted row entries →
          (∃ now, l = .statement n now) ∨ t.insertions = s.insertions := by
  cases l with
  | insertEvent e now => exact Or.inl ⟨.insert e now, rfl, (Option.some.inj hl).symm⟩
  | relayOnce => exact Or.inl ⟨.relayStarted, rfl, (Option.some.inj hl).symm⟩
  | pruneExpired now => exact Or.inl ⟨.prune now, rfl, (Option.some.inj hl).symm⟩
  | statement n now =>
    obtain ⟨tx, hn, ht⟩ := Option.bind_eq_some_iff.mp hl
    exact Or.inr ⟨n, tx, hn, statement_moves (h.ok n tx hn) ht, fun _ _ _ => Or.inl ⟨now, rfl⟩⟩
  | publishRaises n error =>
    simp only [next] at hl
    split at hl
    case h_1 row todo done hn =>
      obtain rfl := Option.some.inj hl
      exact Or.inr ⟨n, _, hn, .quiet _ s.nextId (fun id hid => hid), fun _ _ _ => Or.inr rfl⟩
    case h_2 => cases hl
  | rollback n =>
    simp only [next] at hl
    split at hl
    case h_1 | h_2 => cases hl
    case h_3 tx _ hn =>
      obtain rfl := Option.some.inj hl
      exact Or.inr ⟨n, tx, hn, .quiet _ s.nextId (by simp [Tx.sent]), fun _ _ _ => Or.inr rfl⟩

end Relayna.Studio.Outbox
