import Relayna.Studio.Registry

/-!
# Concurrent changes of one service

`update_service` and `store_capability_document` read the record of the service, change some of
its fields and have the store write the whole record. The Redis store looks again whether the
record exists before it writes, the PostgreSQL store looks while it holds the row; neither
compares the record with the one that was read. The registry is one that was made without a store
of observability profiles.

`log` are the writes in order. In runs whose writes meet `FreshWrite` the record is what they
make of it one after another, so an operator's change stays until it is overwritten.
-/
namespace Relayna.Studio.ServiceUpdates

open Python Contracts Transition Registry

/-- `none` is a field that the request does not set. -/
structure UpdateServiceRequest where
  name : Option String := none
  baseUrl : Option String := none
  environment : Option String := none
  tags : Option (List String) := none
  authMode : Option String := none
  status : Option ServiceStatus := none
  logConfig : Option (Option (Fields Value)) := none
  metricsConfig : Option (Option (Fields Value)) := none
  traceConfig : Option (Option (Fields Value)) := none

/-- The fields that an operator can change. -/
inductive Field
  | name | baseUrl | environment | tags | authMode | status
  | logConfig | metricsConfig | traceConfig
  deriving DecidableEq, Repr

namespace UpdateServiceRequest

def apply (q : UpdateServiceRequest) (r : ServiceRecord) : ServiceRecord :=
  { r with
    name := q.name.getD r.name
    baseUrl := q.baseUrl.getD r.baseUrl
    environment := q.environment.getD r.environment
    tags := q.tags.getD r.tags
    authMode := q.authMode.getD r.authMode
    status := q.status.getD r.status
    logConfig := q.logConfig.getD r.logConfig
    metricsConfig := q.metricsConfig.getD r.metricsConfig
    traceConfig := q.traceConfig.getD r.traceConfig }

def sets (q : UpdateServiceRequest) : Field → Bool
  | .name => q.name.isSome
  | .baseUrl => q.baseUrl.isSome
  | .environment => q.environment.isSome
  | .tags => q.tags.isSome
  | .authMode => q.authMode.isSome
  | .status => q.status.isSome
  | .logConfig => q.logConfig.isSome
  | .metricsConfig => q.metricsConfig.isSome
  | .traceConfig => q.traceConfig.isSome

end UpdateServiceRequest

/-- What an operation makes of the record it has read. -/
inductive Change where
  | request (q : UpdateServiceRequest)
  | refresh (document : Fields Value) (now : Int) (markHealthy : Bool)

def refreshedStatus (markHealthy : Bool) (status : ServiceStatus) : ServiceStatus :=
  if markHealthy then (if status = .disabled then .disabled else .healthy) else status

def Change.apply : Change → ServiceRecord → ServiceRecord
  | .request q, r => q.apply r
  | .refresh document now markHealthy, r =>
    { r with
      capabilities := some document
      lastSeenAt := some now
      status := refreshedStatus markHealthy r.status }

inductive Operation where
  | update (q : UpdateServiceRequest)
  | delete
  | store (document : Fields Value) (markHealthy : Bool)
  | create (r : ServiceRecord)

inductive Backend
  | redis | postgres
  deriving DecidableEq, Repr

/-- The record that was read and the change to be written. `stored` is what the Redis store reads
once more, in `update`. -/
structure Pending where
  read : ServiceRecord
  change : Change
  stored : ServiceRecord := read

/-- What a call awaits. `rest` are commands on the other keys of the service. -/
inductive Stage where
  | getService
  | storeGet (w : Pending)
  | getOwner (w : Pending)
  /-- `SET` of the record, or the transaction. -/
  | write (w : Pending)
  | deleteGet
  /-- `DEL` of the record, or the transaction. -/
  | deleteRecord
  | createSet (r : ServiceRecord)
  | createSetOwner
  /-- `SADD`; where it raises, the record is taken back. -/
  | createAdd
  | createDelete
  | rest (commands : Nat)
  | returned
  | raised

structure Call where
  operation : Operation
  stage : Stage

/-- A write of the record, with the call it is of. -/
inductive Entry where
  | created (n : Nat) (r : ServiceRecord)
  | changed (n : Nat) (change : Change)
  | deleted (n : Nat)

structure Service where
  record : Option ServiceRecord
  calls : Nat → Option Call
  log : List Entry

inductive Step where
  | call (n : Nat) (operation : Operation)
  /-- What the call awaits is done. `taken` says that another service has the environment and
  base URL. -/
  | await (n : Nat) (now : Int) (taken : Bool)
  | raise (n : Nat)

/-- The commands after the `SET` of an update. -/
def Pending.commands (w : Pending) : Nat :=
  if (w.change.apply w.read).envUrlKey = w.stored.envUrlKey then 2 else 3

/-- After `get_service`. -/
def found (backend : Backend) (r : ServiceRecord) (now : Int) : Operation → Stage
  | .update q =>
    if q.status = some .healthy then .raised
    else match backend with
      | .redis => .storeGet { read := r, change := .request q }
      | .postgres => .write { read := r, change := .request q }
  | .store document markHealthy =>
    match backend with
    | .redis => .storeGet { read := r, change := .refresh document now markHealthy }
    | .postgres => .write { read := r, change := .refresh document now markHealthy }
  | .delete =>
    match backend with
    | .redis => .deleteGet
    | .postgres => .deleteRecord
  | .create _ => .raised

/-- The next stage, and what is written. -/
def await (backend : Backend) (n : Nat) (record : Option ServiceRecord) (now : Int) (taken : Bool)
    (operation : Operation) : Stage → Stage × Option Entry
  | .getService =>
    match record with
    | some r => (found backend r now operation, none)
    | none => (.raised, none)
  | .storeGet w =>
    match record with
    | some r => (.getOwner { w with stored := r }, none)
    | none => (.raised, none)
  | .getOwner w => (if taken then .raised else .write w, none)
  | .write w =>
    match backend with
    | .redis => (.rest w.commands, some (.changed n w.change))
    | .postgres =>
      if record.isNone ∨ taken then (.raised, none) else (.returned, some (.changed n w.change))
  | .deleteGet => (if record.isSome then .deleteRecord else .raised, none)
  | .deleteRecord =>
    match backend with
    | .redis => (.rest 2, some (.deleted n))
    | .postgres => if record.isNone then (.raised, none) else (.returned, some (.deleted n))
  | .createSet r =>
    if record.isSome then (.raised, none)
    else match backend with
      | .redis => (.createSetOwner, some (.created n r))
      | .postgres => if taken then (.raised, none) else (.returned, some (.created n r))
  | .createSetOwner => (if taken then .createDelete else .createAdd, none)
  | .createAdd => (.returned, none)
  | .createDelete => (.raised, some (.deleted n))
  | .rest commands => (if commands ≤ 1 then .returned else .rest (commands - 1), none)
  | .returned => (.returned, none)
  | .raised => (.raised, none)

/-- The record that a write leaves: an update writes what it made of the copy it had read. -/
def Stage.written (record : Option ServiceRecord) (stage : Stage) : Option Entry →
    Option ServiceRecord
  | none => record
  | some (.created _ r) => some r
  | some (.deleted _) => none
  | some (.changed _ change) =>
    match stage with
    | .write w => some (change.apply w.read)
    | _ => record

/-- What follows when what is awaited raises. -/
def Stage.failed : Stage → Stage
  | .createAdd => .createDelete
  | _ => .raised

def Stage.ended : Stage → Bool
  | .returned | .raised => true
  | _ => false

def Operation.stage : Operation → Stage
  | .create r => .createSet r
  | _ => .getService

def next (backend : Backend) (s : Service) : Step → Option Service
  | .call n operation =>
    match s.calls n with
    | none => some { s with calls := Function.update s.calls n (some ⟨operation, operation.stage⟩) }
    | some _ => none
  | .await n now taken =>
    match s.calls n with
    | none => none
    | some call =>
      if call.stage.ended then none
      else
        let (stage, entry) := await backend n s.record now taken call.operation call.stage
        some
          { record := call.stage.written s.record entry
            calls := Function.update s.calls n (some ⟨call.operation, stage⟩)
            log := s.log ++ entry.toList }
  | .raise n =>
    match s.calls n with
    | none => none
    | some call =>
      if call.stage.ended then none
      else
        some { s with
          calls := Function.update s.calls n (some ⟨call.operation, call.stage.failed⟩) }

def machine (backend : Backend) : Machine Service Step := ⟨next backend⟩

def Service.initial (record : Option ServiceRecord) : Service := ⟨record, fun _ => none, []⟩

/-- Writing the change to the record that is stored gives what is written: the stored record
agrees with the copy that was read wherever the change does not overwrite it. -/
def Pending.Fits (w : Pending) (current : ServiceRecord) : Prop :=
  w.change.apply current = w.change.apply w.read

/-- Whenever an update or a refresh writes, the record is still there and what is written fits. -/
def FreshWrite (backend : Backend) (s : Service) : Step → Prop
  | .await n _ taken => ∀ operation w, s.calls n = some ⟨operation, .write w⟩ →
    match backend with
    | .redis => ∃ current, s.record = some current ∧ w.Fits current
    | .postgres => ∀ current, s.record = some current → taken = false → w.Fits current
  | _ => True

/-! ## The record as what the writes make of it -/

def Entry.apply : Entry → Option ServiceRecord → Option ServiceRecord
  | .created _ r, _ => some r
  | .changed _ change, record => record.map change.apply
  | .deleted _, _ => none

def replay (record : Option ServiceRecord) (log : List Entry) : Option ServiceRecord :=
  log.foldl (fun record entry => entry.apply record) record

theorem replay_concat (record : Option ServiceRecord) (log : List Entry) (entry : Entry) :
    replay record (log ++ [entry]) = entry.apply (replay record log) := by
  simp [replay]

/-- What a step writes. -/
theorem await_written {backend : Backend} {s : Service} {n : Nat} {now : Int} {taken : Bool}
    {call : Call} (hn : s.calls n = some call) (fresh : FreshWrite backend s (.await n now taken))
    {entry : Entry}
    (he : (await backend n s.record now taken call.operation call.stage).2 = some entry) :
    call.stage.written s.record (some entry) = entry.apply s.record := by
  obtain ⟨operation, stage⟩ := call
  cases stage with
  | write w =>
    have fits := fresh operation w hn
    cases backend with
    | redis =>
      obtain rfl := Option.some.inj he
      obtain ⟨current, hc, same⟩ := fits
      simp [Stage.written, Entry.apply, hc, same.symm]
    | postgres =>
      simp only [await] at he
      split_ifs at he with gone
      obtain rfl := Option.some.inj he
      simp only [not_or, Option.isNone_iff_eq_none, Bool.not_eq_true] at gone
      obtain ⟨current, hc⟩ := Option.ne_none_iff_exists'.mp gone.1
      have same := fits current hc gone.2
      simp [Stage.written, Entry.apply, hc, same.symm]
  | deleteRecord =>
    simp only [await] at he
    cases backend with
    | redis =>
      obtain rfl := Option.some.inj he
      rfl
    | postgres =>
      split_ifs at he
      obtain rfl := Option.some.inj he
      rfl
  | createSet r =>
    cases backend with
    | redis =>
      simp only [await] at he
      split_ifs at he
      obtain rfl := Option.some.inj he
      rfl
    | postgres =>
      simp only [await] at he
      split_ifs at he
      obtain rfl := Option.some.inj he
      rfl
  | createDelete =>
    obtain rfl := Option.some.inj he
    rfl
  | getService =>
    simp only [await] at he
    split at he <;> cases he
  | storeGet w =>
    simp only [await] at he
    split at he <;> cases he
  | getOwner | deleteGet | createSetOwner | createAdd | rest | returned | raised => cases he

/-- What one step can do. -/
theorem next_cases {backend : Backend} {s t : Service} {l : Step} (hl : next backend s l = some t) :
    (t.record = s.record ∧ t.log = s.log ∧ ∃ n call,
        t.calls = Function.update s.calls n (some call) ∧
          ((∃ stage : Stage, call.stage = stage.failed) ∨ call.stage = call.operation.stage)) ∨
      ∃ n now taken call, l = .await n now taken ∧ s.calls n = some call ∧
        t.record = call.stage.written s.record
          (await backend n s.record now taken call.operation call.stage).2 ∧
        t.calls = Function.update s.calls n (some ⟨call.operation,
          (await backend n s.record now taken call.operation call.stage).1⟩) ∧
        t.log = s.log ++
          (await backend n s.record now taken call.operation call.stage).2.toList := by
  cases l with
  | call n operation =>
    simp only [next] at hl
    split at hl <;> cases hl
    exact Or.inl ⟨rfl, rfl, n, _, rfl, Or.inr rfl⟩
  | await n now taken =>
    simp only [next] at hl
    split at hl
    · cases hl
    · rename_i call hn
      split_ifs at hl
      obtain rfl := Option.some.inj hl
      exact Or.inr ⟨n, now, taken, call, rfl, hn, rfl, rfl, rfl⟩
  | raise n =>
    simp only [next] at hl
    split at hl
    · cases hl
    · rename_i call hn
      split_ifs at hl
      obtain rfl := Option.some.inj hl
      exact Or.inl ⟨rfl, rfl, n, _, rfl, Or.inl ⟨_, rfl⟩⟩

theorem replay_next {backend : Backend} {record : Option ServiceRecord} {s t : Service} {l : Step}
    (h : s.record = replay record s.log) (fresh : FreshWrite backend s l)
    (hl : next backend s l = some t) : t.record = replay record t.log := by
  obtain ⟨same, log, -⟩ | ⟨n, now, taken, call, rfl, hn, wrote, -, log⟩ := next_cases hl
  · rw [same, log, h]
  · cases he : (await backend n s.record now taken call.operation call.stage).2 with
    | none =>
      rw [he] at wrote log
      rw [wrote, log]
      simpa [Stage.written] using h
    | some entry =>
      rw [he] at wrote log
      rw [wrote, log, Option.toList_some, replay_concat, ← h]
      exact await_written hn fresh he

/-! ## Fields -/

/-- The two records have the same value of the field. -/
def Agree (f : Field) (a b : ServiceRecord) : Prop :=
  match f with
  | .name => a.name = b.name
  | .baseUrl => a.baseUrl = b.baseUrl
  | .environment => a.environment = b.environment
  | .tags => a.tags = b.tags
  | .authMode => a.authMode = b.authMode
  | .status => a.status = b.status
  | .logConfig => a.logConfig = b.logConfig
  | .metricsConfig => a.metricsConfig = b.metricsConfig
  | .traceConfig => a.traceConfig = b.traceConfig

theorem Agree.trans {f : Field} {a b c : ServiceRecord} (h : Agree f a b) (h' : Agree f b c) :
    Agree f a c := by
  cases f <;> exact Eq.trans h h'

theorem getD_eq_getD {α : Type} {o : Option α} (h : o.isSome) (a b : α) : o.getD a = o.getD b := by
  obtain ⟨x, rfl⟩ := Option.isSome_iff_exists.mp h
  rfl

theorem getD_of_not_isSome {α : Type} {o : Option α} (h : o.isSome = false) (a : α) :
    o.getD a = a := by
  obtain rfl : o = none := by simpa using h
  rfl

theorem agree_apply_apply {q : UpdateServiceRequest} {f : Field} (h : q.sets f)
    (a b : ServiceRecord) : Agree f (q.apply a) (q.apply b) := by
  cases f <;> exact getD_eq_getD h ..

theorem agree_apply {q : UpdateServiceRequest} {f : Field} (h : q.sets f = false)
    (a : ServiceRecord) : Agree f (q.apply a) a := by
  cases f <;> exact getD_of_not_isSome h _

theorem agree_refresh {f : Field} (h : f ≠ .status) (document : Fields Value) (now : Int)
    (markHealthy : Bool) (a : ServiceRecord) :
    Agree f ((Change.refresh document now markHealthy).apply a) a := by
  cases f <;> first | rfl | exact absurd rfl h

/-- The record has the value that the request sets. -/
def UpdateServiceRequest.Shows (q : UpdateServiceRequest) (f : Field) (r : ServiceRecord) : Prop :=
  Agree f r (q.apply r)

theorem UpdateServiceRequest.Shows.of_agree {q : UpdateServiceRequest} {f : Field}
    {a b : ServiceRecord} (h : q.Shows f a) (sets : q.sets f) (same : Agree f b a) : q.Shows f b :=
  (same.trans h).trans (agree_apply_apply sets a b)

/-- The entry may change the field to something else. A refresh changes the status, unless the
operator has disabled the service. -/
def Entry.overrides (q : UpdateServiceRequest) (f : Field) : Entry → Bool
  | .created .. | .deleted _ => true
  | .changed _ (.request q') => q'.sets f
  | .changed _ (.refresh _ _ markHealthy) =>
    decide (f = .status) && markHealthy && decide (q.status ≠ some .disabled)

theorem UpdateServiceRequest.Shows.apply {q : UpdateServiceRequest} {f : Field} {r : ServiceRecord}
    (h : q.Shows f r) (sets : q.sets f) {n : Nat} {change : Change}
    (kept : Entry.overrides q f (.changed n change) = false) : q.Shows f (change.apply r) := by
  cases change with
  | request q' => exact h.of_agree sets (agree_apply kept r)
  | refresh document now markHealthy =>
    by_cases status : f = .status
    · subst status
      refine h.of_agree sets ?_
      change refreshedStatus markHealthy r.status = r.status
      cases markHealthy with
      | false => rfl
      | true =>
        have disabled : q.status = some .disabled := by simpa [Entry.overrides] using kept
        have shown : r.status = .disabled := by
          have set : r.status = q.status.getD r.status := h
          rw [disabled, Option.getD_some] at set
          exact set
        rw [shown]
        rfl
    · exact h.of_agree sets (agree_refresh status document now markHealthy r)

theorem replay_shows {record : Option ServiceRecord} {before after : List Entry} {n : Nat}
    {q : UpdateServiceRequest} {f : Field} (sets : q.sets f)
    (kept : ∀ e ∈ after, e.overrides q f = false) {r : ServiceRecord}
    (present : replay record before = some r) :
    ∃ r', replay record (before ++ .changed n (.request q) :: after) = some r' ∧ q.Shows f r' := by
  induction after using List.reverseRecOn with
  | nil =>
    refine ⟨q.apply r, ?_, agree_apply_apply sets r (q.apply r)⟩
    rw [replay_concat, present]
    rfl
  | append_singleton after e ih =>
    obtain ⟨r', hr', shown⟩ := ih fun e he => kept e (List.mem_append_left _ he)
    have mine := kept e (by simp)
    rw [← List.cons_append, ← List.append_assoc, replay_concat, hr']
    cases e with
    | created | deleted => cases mine
    | changed m change => exact ⟨change.apply r', rfl, shown.apply sets mine⟩

theorem replay_deleted (record : Option ServiceRecord) (before after : List Entry) (n : Nat)
    (kept : ∀ m r, .created m r ∉ after) :
    replay record (before ++ .deleted n :: after) = none := by
  induction after using List.reverseRecOn with
  | nil => rw [replay_concat, Entry.apply]
  | append_singleton after e ih =>
    have gone := ih fun m r he => kept m r (List.mem_append_left _ he)
    rw [← List.cons_append, ← List.append_assoc, replay_concat, gone]
    cases e with
    | created m r => exact absurd (by simp) (kept m r)
    | deleted | changed => rfl

/-! ## Every run -/

/-- The operation's write is in the log. -/
def Operation.Wrote (n : Nat) (log : List Entry) : Operation → Prop
  | .update q => .changed n (.request q) ∈ log
  | .delete => .deleted n ∈ log
  | .store document markHealthy =>
    ∃ now, .changed n (.refresh document now markHealthy) ∈ log
  | .create r => .created n r ∈ log

def Operation.Changes : Operation → Change → Prop
  | .update q, change => change = .request q
  | .store document markHealthy, change => ∃ now, change = .refresh document now markHealthy
  | .delete, _ | .create _, _ => False

/-- The stage is one of the operation's. -/
def Stage.Of (n : Nat) (log : List Entry) (operation : Operation) : Stage → Prop
  | .storeGet w | .getOwner w | .write w => operation.Changes w.change
  | .deleteGet | .deleteRecord => operation = .delete
  | .createSet r => operation = .create r
  | .createSetOwner | .createAdd | .rest _ | .returned => operation.Wrote n log
  | .getService => ∀ r, operation ≠ .create r
  | .createDelete | .raised => True

theorem Operation.Wrote.append {n : Nat} {log : List Entry} {operation : Operation}
    (h : operation.Wrote n log) (more : List Entry) : operation.Wrote n (log ++ more) := by
  cases operation with
  | update | delete | create => exact List.mem_append_left _ h
  | store document markHealthy =>
    obtain ⟨now, h⟩ := h
    exact ⟨now, List.mem_append_left _ h⟩

theorem Stage.Of.append {n : Nat} {log : List Entry} {operation : Operation} {stage : Stage}
    (h : stage.Of n log operation) (more : List Entry) : stage.Of n (log ++ more) operation := by
  cases stage with
  | createSetOwner | createAdd | rest | returned => exact Operation.Wrote.append h more
  | _ => exact h

theorem Operation.Changes.wrote {n : Nat} {log : List Entry} {operation : Operation}
    {change : Change} (h : operation.Changes change) :
    operation.Wrote n (log ++ [.changed n change]) := by
  cases operation with
  | update q =>
    obtain rfl := h
    exact List.mem_append_right _ (List.mem_singleton_self _)
  | store document markHealthy =>
    obtain ⟨now, rfl⟩ := h
    exact ⟨now, List.mem_append_right _ (List.mem_singleton_self _)⟩
  | delete | create => exact h.elim

theorem found_of {n : Nat} {log : List Entry} (backend : Backend) (r : ServiceRecord) (now : Int)
    (operation : Operation) : (found backend r now operation).Of n log operation := by
  cases operation with
  | update q =>
    simp only [found]
    split_ifs
    · trivial
    · cases backend <;> rfl
  | store document markHealthy => cases backend <;> exact ⟨now, rfl⟩
  | delete => cases backend <;> rfl
  | create => trivial

theorem await_of {backend : Backend} {n : Nat} {record : Option ServiceRecord} {log : List Entry}
    {now : Int} {taken : Bool} {operation : Operation} {stage : Stage}
    (h : stage.Of n log operation) :
    (await backend n record now taken operation stage).1.Of n
      (log ++ (await backend n record now taken operation stage).2.toList) operation := by
  cases stage with
  | getService =>
    cases record with
    | none => trivial
    | some r => exact found_of backend r now operation
  | storeGet w =>
    cases record with
    | none => trivial
    | some r => exact h
  | getOwner w =>
    simp only [await]
    split_ifs
    · trivial
    · exact h
  | write w =>
    simp only [await]
    cases backend with
    | redis => exact h.wrote
    | postgres =>
      dsimp only
      split_ifs
      · trivial
      · exact h.wrote
  | deleteGet =>
    simp only [await]
    split_ifs
    · exact h
    · trivial
  | deleteRecord =>
    obtain rfl : operation = .delete := h
    simp only [await]
    cases backend with
    | redis => exact List.mem_append_right _ (List.mem_singleton_self _)
    | postgres =>
      dsimp only
      split_ifs
      · trivial
      · exact List.mem_append_right _ (List.mem_singleton_self _)
  | createSet r =>
    obtain rfl : operation = .create r := h
    cases backend with
    | redis =>
      simp only [await]
      split_ifs
      · trivial
      · exact List.mem_append_right _ (List.mem_singleton_self _)
    | postgres =>
      simp only [await]
      split_ifs
      · trivial
      · trivial
      · exact List.mem_append_right _ (List.mem_singleton_self _)
  | createSetOwner =>
    simp only [await]
    split_ifs
    · trivial
    · exact Operation.Wrote.append h []
  | createAdd => exact Operation.Wrote.append h []
  | createDelete => trivial
  | rest commands =>
    simp only [await]
    split_ifs
    · exact Operation.Wrote.append h []
    · exact Operation.Wrote.append h []
  | returned => exact Operation.Wrote.append h []
  | raised => trivial

/-- The writes of the record are those of the calls, and each is to a record that was there. -/
structure Inv (record : Option ServiceRecord) (s : Service) : Prop where
  stored : s.record = replay record s.log
  present : ∀ before n change after, s.log = before ++ .changed n change :: after →
    (replay record before).isSome
  stages : ∀ n call, s.calls n = some call → call.stage.Of n s.log call.operation

/-- A change is written to a record that is there. -/
theorem await_present {backend : Backend} {s : Service} {n : Nat} {now : Int} {taken : Bool}
    {call : Call} (hn : s.calls n = some call) (fresh : FreshWrite backend s (.await n now taken))
    {m : Nat} {change : Change}
    (he : (await backend n s.record now taken call.operation call.stage).2 =
      some (.changed m change)) : s.record.isSome := by
  obtain ⟨operation, stage⟩ := call
  cases stage with
  | write w =>
    cases backend with
    | redis =>
      obtain ⟨current, hc, -⟩ := fresh operation w hn
      simp [hc]
    | postgres =>
      simp only [await] at he
      split_ifs at he with gone
      simp only [not_or, Option.isNone_iff_eq_none, Bool.not_eq_true] at gone
      exact Option.isSome_iff_ne_none.mpr gone.1
  | getService =>
    simp only [await] at he
    split at he <;> cases he
  | createSet r =>
    cases backend <;> simp only [await] at he <;> split_ifs at he <;> cases he
  | deleteRecord =>
    cases backend <;> simp only [await] at he
    · cases he
    · split_ifs at he <;> cases he
  | storeGet w =>
    simp only [await] at he
    split at he <;> cases he
  | createDelete | getOwner | deleteGet | createSetOwner | createAdd | rest | returned | raised =>
    cases he

theorem Stage.failed_of (n : Nat) (log : List Entry) (operation : Operation) (stage : Stage) :
    stage.failed.Of n log operation := by
  cases stage
  all_goals trivial

theorem Operation.stage_of (n : Nat) (log : List Entry) (operation : Operation) :
    operation.stage.Of n log operation := by
  cases operation with
  | create r => rfl
  | update | delete | store => exact nofun

theorem Inv.next {backend : Backend} {record : Option ServiceRecord} {s t : Service} {l : Step}
    (h : Inv record s) (fresh : FreshWrite backend s l) (hl : next backend s l = some t) :
    Inv record t := by
  have stored := replay_next h.stored fresh hl
  obtain ⟨-, log, n, call, calls, stage⟩ | ⟨n, now, taken, call, rfl, hn, -, calls, log⟩ :=
    next_cases hl
  · refine ⟨stored, by rw [log]; exact h.present, fun m other hm => ?_⟩
    rw [calls] at hm
    rw [log]
    obtain ⟨-, rfl⟩ | ⟨-, hm⟩ := update_some_cases hm
    · obtain ⟨stage, failed⟩ | first := stage
      · rw [failed]
        exact stage.failed_of _ _ _
      · rw [first]
        exact other.operation.stage_of _ _
    · exact h.stages m other hm
  · refine ⟨stored, fun before m change after split => ?_, fun m other hm => ?_⟩
    · rw [log] at split
      cases he : (await backend n s.record now taken call.operation call.stage).2 with
      | none =>
        rw [he, Option.toList_none, List.append_nil] at split
        exact h.present before m change after split
      | some entry =>
        rw [he, Option.toList_some] at split
        -- The new entry is the last one of the log.
        obtain rfl | ⟨rest, last, rfl⟩ := List.eq_nil_or_concat' after
        · obtain ⟨rfl, rfl⟩ := List.append_inj' split rfl |>.imp_right List.singleton_inj.mp
          rw [← h.stored]
          exact await_present hn fresh he
        · rw [← List.cons_append, ← List.append_assoc] at split
          exact h.present before m change rest (List.append_inj' split rfl).1
    · rw [calls] at hm
      rw [log]
      obtain ⟨rfl, rfl⟩ | ⟨-, hm⟩ := update_some_cases hm
      · exact await_of (h.stages m call hn)
      · exact (h.stages m other hm).append _

/-- What a refresh leaves of a record. -/
structure RefreshOf (a b : ServiceRecord) : Prop where
  fields : ∀ f, f ≠ .status → Agree f b a
  serviceId : b.serviceId = a.serviceId
  status : b.status = a.status ∨ a.status ≠ .disabled ∧ b.status = .healthy

theorem refreshOf_apply (document : Fields Value) (now : Int) (markHealthy : Bool)
    (a : ServiceRecord) : RefreshOf a ((Change.refresh document now markHealthy).apply a) := by
  refine ⟨fun f hf => agree_refresh hf document now markHealthy a, rfl, ?_⟩
  simp only [Change.apply]
  unfold refreshedStatus
  split_ifs with mark disabled
  · exact Or.inl disabled.symm
  · exact Or.inr ⟨disabled, rfl⟩
  · exact Or.inl rfl

theorem refresh_step {backend : Backend} {record : Option ServiceRecord} {s t : Service} {l : Step}
    (h : Inv record s) (fresh : FreshWrite backend s l) (hl : next backend s l = some t) {n : Nat}
    {document : Fields Value} {now : Int} {markHealthy : Bool}
    (wrote : t.log = s.log ++ [.changed n (.refresh document now markHealthy)]) :
    ∃ a b, s.record = some a ∧ t.record = some b ∧ RefreshOf a b := by
  have after := h.next fresh hl
  have was := after.present s.log n _ [] wrote
  rw [← h.stored] at was
  obtain ⟨a, ha⟩ := Option.isSome_iff_exists.mp was
  refine ⟨a, _, ha, ?_, refreshOf_apply document now markHealthy a⟩
  rw [after.stored, wrote, replay_concat, ← h.stored, ha]
  rfl

theorem inv_initial (record : Option ServiceRecord) : Inv record (.initial record) where
  stored := rfl
  present before n change after h := by simp [Service.initial] at h
  stages n call h := nomatch h

theorem operator_change_survives (backend : Backend) (record : Option ServiceRecord)
    (ls : List Step) (s : Service) (run : (machine backend).exec (.initial record) ls = some s)
    (fresh : (machine backend).Along (FreshWrite backend) (.initial record) ls) :
    (∀ n operation, s.calls n = some ⟨operation, .returned⟩ → operation.Wrote n s.log) ∧
    (∀ before n q after f, s.log = before ++ .changed n (.request q) :: after → q.sets f →
      (∀ e ∈ after, e.overrides q f = false) → ∃ r, s.record = some r ∧ q.Shows f r) ∧
    (∀ before l after a b n document now markHealthy, ls = before ++ l :: after →
      (machine backend).exec (.initial record) before = some a → next backend a l = some b →
        b.log = a.log ++ [.changed n (.refresh document now markHealthy)] →
          ∃ r r', a.record = some r ∧ b.record = some r' ∧ RefreshOf r r') ∧
    ∀ before n after, s.log = before ++ .deleted n :: after → (∀ m r, .created m r ∉ after) →
      s.record = none := by
  have inv : ∀ {ls s}, (machine backend).Along (FreshWrite backend) (.initial record) ls →
      (machine backend).exec (.initial record) ls = some s → Inv record s := fun fresh run =>
    (machine backend).invariant_along (fun _ _ _ h ok hl => h.next ok hl) (inv_initial record)
      fresh run
  have h := inv fresh run
  refine ⟨fun n operation hn => h.stages n _ hn, ?_, ?_, ?_⟩
  · intro before n q after f log sets kept
    obtain ⟨r, present⟩ := Option.isSome_iff_exists.mp (h.present before n _ after log)
    rw [h.stored, log]
    exact replay_shows sets kept present
  · rintro before l after a b n document now markHealthy rfl ha hl wrote
    obtain ⟨first, rest⟩ := fresh.of_append ha
    exact refresh_step (inv first ha) rest.1 hl wrote
  · intro before n after log kept
    rw [h.stored, log]
    exact replay_deleted record before after n kept

def someService : ServiceRecord :=
  ⟨"svc", "svc", "http://svc", "dev", [], "none", .registered, none, none, none, none, none⟩

def disable : UpdateServiceRequest := { status := some .disabled }

/-- An operator disables the service after a refresh has read it. -/
def disabledDuringRefresh : Backend → List Step
  | .redis =>
    [.call 0 (.store [] true), .await 0 0 false, .call 1 (.update disable)] ++
      List.replicate 6 (.await 1 1 false) ++ List.replicate 3 (.await 0 2 false)
  | .postgres =>
    [.call 0 (.store [] true), .await 0 0 false, .call 1 (.update disable)] ++
      List.replicate 2 (.await 1 1 false) ++ [.await 0 2 false]

/-- The operator disables the service before a refresh, which has begun, reads it. -/
def disabledBeforeRefresh : List Step :=
  [.call 0 (.store [] true), .call 1 (.update disable), .await 1 1 false, .await 1 1 false,
    .await 0 2 false, .await 0 3 false]

/-- The operator's change has returned, and the service is enabled. -/
def Undone (backend : Backend) : Prop :=
  ∃ s, (machine backend).exec (.initial (some someService)) (disabledDuringRefresh backend) =
      some s ∧ s.calls 1 = some ⟨.update disable, .returned⟩ ∧
    s.record.map (·.status) = some .healthy

theorem refresh_undoes_disable : Undone .redis ∧ Undone .postgres :=
  ⟨⟨_, rfl, rfl, rfl⟩, ⟨_, rfl, rfl, rfl⟩⟩

theorem disable_survives_refresh :
    ∃ s, (machine .postgres).exec (.initial (some someService)) disabledBeforeRefresh = some s ∧
      s.calls 0 = some ⟨.store [] true, .returned⟩ ∧
      ∃ r, s.record = some r ∧ r.capabilities = some [] ∧ disable.Shows .status r := by
  have fresh : (machine .postgres).Along (FreshWrite .postgres) (.initial (some someService))
      disabledBeforeRefresh := by
    refine .cons trivial rfl (.cons trivial rfl (.cons ?_ rfl (.cons ?_ rfl (.cons ?_ rfl
      (.cons ?_ rfl trivial)))))
    · intro operation w h
      simp [Operation.stage] at h
    · intro operation w h current hc _
      obtain ⟨-, rfl⟩ : .update disable = operation ∧
          ({ read := someService, change := .request disable } : Pending) = w := by
        simpa [Service.initial, found, disable] using h
      obtain rfl : someService = current := Option.some.inj hc
      rfl
    · intro operation w h
      simp [Operation.stage] at h
    · intro operation w h current hc _
      cases h
      cases hc
      rfl
  refine ⟨_, rfl, rfl, _, rfl, rfl, ?_⟩
  have survives := operator_change_survives .postgres (some someService) disabledBeforeRefresh _
    rfl fresh
  obtain ⟨r, here, shown⟩ := survives.2.1 [] 1 disable
    [.changed 0 (.refresh [] 2 true)] .status rfl rfl (by decide)
  exact Option.some.inj here ▸ shown

end Relayna.Studio.ServiceUpdates
