import Relayna.Contracts.Transport
import Relayna.Foundation.Transition

/-!
# Load-test records

`start`, `status` and its cancelling form read the record of a plan, ask Chamber, and write the
whole record back. Calls run concurrently and nothing is compared at the write, so what is stored
last is what was written last, and not what Chamber answered last.

Chamber keeps one job for the idempotency key of the plan and its state stays what it is once it
is terminal. `Covers` is what a write has to meet so that nothing goes backwards; it speaks of
the stored record, the snapshot that was read and the answers of Chamber.
-/
namespace Relayna.Studio.LoadTests

open Python Contracts Transition

/-- `_redact`, and `datetime.fromisoformat` followed by `isoformat` for a text with a time zone.
Nothing here depends on what they return. -/
structure Formats where
  redact : Fields Value → Fields Value
  aware : String → Option String

structure Record where
  environment : String
  /-- Seconds. -/
  createdAt : Int
  requiresTargetConfirmation : Bool
  requiresFaultConfirmation : Bool
  state : String
  jobId : Option String
  runId : Option String
  startedAt : Option String
  cancelRequested : Option Bool
  cleanupRequired : Option Bool
  output : String
  error : String
  finishedAt : Option String
  result : Option (Fields Value)
  taskCount : Option Nat
  tasksTruncated : Bool
  tasks : Option (List (Fields Value))
  evidenceError : String

/-- `_TERMINAL`. -/
def terminalStates : List String := ["completed", "failed", "cancelled"]

def Record.Terminal (r : Record) : Prop := r.state ∈ terminalStates

instance (r : Record) : Decidable r.Terminal := inferInstanceAs (Decidable (_ ∈ _))

/-- The answer to `POST runs`. -/
structure StartAnswer where
  jobId : String
  runId : Option String
  createdAt : Option String
  state : Option String

/-- The answer to `GET jobs/…` and to `POST jobs/…/cancel`. -/
structure JobAnswer where
  state : String
  runId : Option String
  cancelRequested : Option Bool
  cleanupRequired : Option Bool
  output : Option String
  error : Option String

/-- The answer to `GET runs/…`. -/
structure RunAnswer where
  updatedAt : Option String
  result : Fields Value
  tasks : List (Fields Value)
  totalTaskCount : Option Nat
  tasksTruncated : Bool

def resultKeys : List String :=
  ["status", "readiness_score", "evidence_coverage_percent", "limitations", "conclusive",
    "confidence", "verdict", "evidence_requirements", "tested_scope", "next_actions",
    "cleanup_verified", "rollback_verified"]

def taskKeys : List String := ["task_id", "terminal_status", "success", "total_duration_ms"]

/-- `{key: source.get(key) for key in keys}`. -/
def select (keys : List String) (source : Fields Value) : Fields Value :=
  keys.map fun key => (key, (source.lookup key).getD .none)

/-- What `start` makes of the record it has read. -/
def started (record : Record) (answer : StartAnswer) (now : String) : Record :=
  { record with
    jobId := some answer.jobId
    runId := answer.runId
    startedAt := some ((answer.createdAt.filter (· ≠ "")).getD now)
    state := answer.state.getD "queued" }

/-- What `status` makes of the record it has read, before it asks for the run. -/
def polled (record : Record) (job : JobAnswer) (now : String) : Record :=
  { record with
    state := job.state
    runId := job.runId
    cancelRequested := job.cancelRequested
    cleanupRequired := job.cleanupRequired
    output := String.ofList ((job.output.getD "").toList.reverse.take 65536).reverse
    error := String.ofList ((job.error.getD "").toList.take 2000)
    finishedAt :=
      if job.state ∈ terminalStates ∧ record.finishedAt.getD "" = "" then some now
      else record.finishedAt }

/-- The evidence of the run. -/
def evidenced (x : Formats) (record : Record) (run : RunAnswer) : Record :=
  let taskCount := run.totalTaskCount.getD run.tasks.length
  { record with
    finishedAt :=
      if record.Terminal then (run.updatedAt.bind x.aware).or record.finishedAt
      else record.finishedAt
    result := some (x.redact (select resultKeys run.result))
    taskCount := some taskCount
    tasksTruncated := run.tasksTruncated || 200 < taskCount
    tasks := some ((run.tasks.take 200).map (select taskKeys))
    evidenceError := "" }

def withoutEvidence (record : Record) : Record :=
  { record with
    evidenceError :=
      "Run evidence is not available yet. Execution output remains available." }

/-- What an operation is about to save: the record it has read, with the answers it got. -/
inductive Write where
  | started (snapshot : Record) (answer : StartAnswer) (now : String)
  /-- `none` when there is no run to ask for, `some none` when asking for it failed. -/
  | polled (snapshot : Record) (job : JobAnswer) (now : String) (run : Option (Option RunAnswer))

def Write.record (x : Formats) : Write → Record
  | .started snapshot answer now => LoadTests.started snapshot answer now
  | .polled snapshot job now none => LoadTests.polled snapshot job now
  | .polled snapshot job now (some none) => withoutEvidence (LoadTests.polled snapshot job now)
  | .polled snapshot job now (some (some run)) =>
    evidenced x (LoadTests.polled snapshot job now) run

def Write.snapshot : Write → Record
  | .started snapshot _ _ | .polled snapshot _ _ _ => snapshot

inductive Operation where
  | start (confirmedTarget confirmedFaults : Bool)
  | status (cancel : Bool)
  deriving DecidableEq, Repr

structure Service where
  environment : String
  disabled : Bool
  deriving DecidableEq, Repr

/-- How a call ends: with the public form of a record or with an `HTTPException`. -/
inductive Outcome where
  | shown (record : Record)
  | raised (status : Nat)

/-- What a call awaits next. -/
inductive Call where
  | bound (operation : Operation)
  | post (snapshot : Record)
  | job (cancel : Bool) (snapshot : Record)
  | run (snapshot : Record) (job : JobAnswer) (now : String)
  | save (write : Write)
  | ended (outcome : Outcome)

structure Job where
  id : String
  state : String
  deriving DecidableEq, Repr

/-- The stored record, Chamber's job for the plan and the calls that were made. -/
structure Plan where
  record : Record
  job : Option Job
  calls : Nat → Option Call

inductive Step where
  | call (n : Nat) (operation : Operation)
  /-- `bound` with the service as it is then. -/
  | read (n : Nat) (service : Option Service)
  /-- Chamber takes `POST runs`. `id` is for a new job, and `told` says whether the answer has
  the job's state. -/
  | post (n : Nat) (id : String) (runId createdAt : Option String) (told : Bool) (now : String)
  /-- Chamber answers with the state of the job as it is then. -/
  | job (n : Nat) (runId : Option String) (cancelRequested cleanupRequired : Option Bool)
    (output error : Option String) (now : String)
  | run (n : Nat) (answer : Option RunAnswer)
  | save (n : Nat) (now : Int)
  /-- What the call awaits raises. -/
  | raise (n : Nat) (status : Nat)
  /-- The job moves on. -/
  | advance (state : String)

/-- `bound`, and what `start` and `status` check before they ask Chamber. -/
def bound (record : Record) (service : Option Service) : Operation → Call
  | .start confirmedTarget confirmedFaults =>
    match service with
    | none => .ended (.raised 404)
    | some service =>
      if service.disabled then .ended (.raised 409)
      else if record.environment ≠ service.environment then .ended (.raised 409)
      else if record.jobId.isSome then .ended (.shown record)
      else if record.requiresTargetConfirmation ∧ ¬ confirmedTarget then .ended (.raised 422)
      else if record.requiresFaultConfirmation ∧ ¬ confirmedFaults then .ended (.raised 422)
      else .post record
  | .status cancel =>
    match service with
    | none => .ended (.raised 404)
    | some service =>
      if record.jobId.isSome then .job cancel record
      else if record.environment ≠ service.environment then .ended (.raised 409)
      else if cancel then .ended (.raised 409)
      else .ended (.shown record)

/-- `status` without `cancel` shows the last retained snapshot when the job call fails. -/
def raises (status : Nat) : Call → Call
  | .job false snapshot => .ended (.shown snapshot)
  | _ => .ended (.raised status)

def retention : Int := 30 * 86400

def Plan.moved (s : Plan) (n : Nat) (call : Call) : Plan :=
  { s with calls := Function.update s.calls n (some call) }

/-- The job that Chamber has for the idempotency key after `POST runs`. -/
def Plan.posted (s : Plan) (id : String) : Job := s.job.getD ⟨id, "queued"⟩

def next (x : Formats) (s : Plan) : Step → Option Plan
  | .call n operation =>
    match s.calls n with
    | none => some (s.moved n (.bound operation))
    | some _ => none
  | .read n service =>
    match s.calls n with
    | some (.bound operation) => some (s.moved n (LoadTests.bound s.record service operation))
    | _ => none
  | .post n id runId createdAt told now =>
    match s.calls n with
    | some (.post snapshot) =>
      let job := s.posted id
      if job.id = "" then none
      else
        let answer : StartAnswer :=
          ⟨job.id, runId, createdAt, if told then some job.state else none⟩
        some { s.moved n (.save (.started snapshot answer now)) with job := some job }
    | _ => none
  | .job n runId cancelRequested cleanupRequired output error now =>
    match s.calls n, s.job with
    | some (.job _ snapshot), some job =>
      if snapshot.jobId ≠ some job.id then none
      else
        let answer : JobAnswer :=
          ⟨job.state, runId, cancelRequested, cleanupRequired, output, error⟩
        if runId.getD "" = "" then some (s.moved n (.save (.polled snapshot answer now none)))
        else some (s.moved n (.run snapshot answer now))
    | _, _ => none
  | .run n answer =>
    match s.calls n with
    | some (.run snapshot job now) =>
      some (s.moved n (.save (.polled snapshot job now (some answer))))
    | _ => none
  | .save n now =>
    match s.calls n with
    | some (.save write) =>
      let record := write.record x
      if record.createdAt + retention ≤ now then some (s.moved n (.ended (.raised 404)))
      else some { s.moved n (.ended (.shown record)) with record := record }
    | _ => none
  | .raise n status =>
    match s.calls n with
    | none | some (.ended _) => none
    | some call => some (s.moved n (raises status call))
  | .advance state =>
    match s.job with
    | some job =>
      if job.state ∈ terminalStates then none else some { s with job := some { job with state } }
    | none => none

def machine (x : Formats) : Machine Plan Step := ⟨next x⟩

/-- The record that `plan` saves. -/
def planned (environment : String) (createdAt : Int)
    (requiresTargetConfirmation requiresFaultConfirmation : Bool) : Record :=
  { environment, createdAt, requiresTargetConfirmation, requiresFaultConfirmation
    state := "planned", jobId := none, runId := none, startedAt := none, cancelRequested := none
    cleanupRequired := none, output := "", error := "", finishedAt := none, result := none
    taskCount := none, tasksTruncated := false, tasks := none, evidenceError := "" }

/-- A record that `plan` has saved, before any other call. -/
def Plan.initial (record : Record) : Plan := ⟨record, none, fun _ => none⟩

/-- The evidence of a run: `finished_at`, `result` and `tasks`. -/
structure Record.KeepsEvidence (a b : Record) : Prop where
  finishedAt : a.finishedAt.isSome → b.finishedAt.isSome
  result : a.result.isSome → b.result.isSome
  tasks : a.tasks.isSome → b.tasks.isSome

/-- Going from `a` to `b` the record has not gone backwards. -/
structure Record.Keeps (a b : Record) : Prop where
  jobId : ∀ id, a.jobId = some id → b.jobId = some id
  terminal : a.Terminal → b.Terminal
  evidence : a.Terminal → a.KeepsEvidence b

/-- What is written on top of a terminal record: Chamber answered with a terminal state, and the
evidence that is stored was in the snapshot or in an answer. A `start` has no evidence. -/
def Write.Covers (stored : Record) : Write → Prop
  | .started _ answer _ =>
    stored.Terminal → answer.state.getD "queued" ∈ terminalStates ∧
      stored.finishedAt = none ∧ stored.result = none ∧ stored.tasks = none
  | .polled snapshot job _ run =>
    stored.Terminal → job.state ∈ terminalStates ∧
      (stored.result.isSome → snapshot.result.isSome ∨ run.join.isSome) ∧
      (stored.tasks.isSome → snapshot.tasks.isSome ∨ run.join.isSome)

instance (stored : Record) : (w : Write) → Decidable (w.Covers stored)
  | .started .. => inferInstanceAs (Decidable (_ → _ ∧ _))
  | .polled .. => inferInstanceAs (Decidable (_ → _ ∧ _))

/-- A write that takes effect covers the record that is stored then. -/
def Call.Covered (stored : Record) (now : Int) : Call → Prop
  | .save write => now < write.snapshot.createdAt + retention → write.Covers stored
  | _ => True

instance (stored : Record) (now : Int) : (call : Call) → Decidable (call.Covered stored now)
  | .save _ => inferInstanceAs (Decidable (_ → _))
  | .bound _ | .post _ | .job .. | .run .. | .ended _ => inferInstanceAs (Decidable True)

def Covered (s : Plan) : Step → Prop
  | .save n now => ∀ call ∈ s.calls n, call.Covered s.record now
  | _ => True

instance (s : Plan) : (l : Step) → Decidable (Covered s l)
  | .save .. => inferInstanceAs (Decidable (∀ call ∈ _, _))
  | .call .. | .read .. | .post .. | .job .. | .run .. | .raise .. | .advance _ =>
    inferInstanceAs (Decidable True)

theorem Write.record_createdAt (x : Formats) (w : Write) :
    (w.record x).createdAt = w.snapshot.createdAt := by
  rcases w with _ | ⟨_, _, _, - | - | _⟩ <;> rfl

theorem record_polled_jobId (x : Formats) (snapshot : Record) (job : JobAnswer) (now : String)
    (run : Option (Option RunAnswer)) :
    (Write.record x (.polled snapshot job now run)).jobId = snapshot.jobId := by
  rcases run with - | - | run <;> rfl

theorem record_polled_state (x : Formats) (snapshot : Record) (job : JobAnswer) (now : String)
    (run : Option (Option RunAnswer)) :
    (Write.record x (.polled snapshot job now run)).state = job.state := by
  rcases run with - | - | run <;> rfl

theorem Record.Keeps.refl (a : Record) : a.Keeps a where
  jobId _ h := h
  terminal h := h
  evidence _ := ⟨id, id, id⟩

theorem Record.Keeps.trans {a b c : Record} (h : a.Keeps b) (h' : b.Keeps c) : a.Keeps c where
  jobId id ha := h'.jobId id (h.jobId id ha)
  terminal ha := h'.terminal (h.terminal ha)
  evidence ha := by
    have first := h.evidence ha
    have second := h'.evidence (h.terminal ha)
    exact ⟨second.finishedAt ∘ first.finishedAt, second.result ∘ first.result,
      second.tasks ∘ first.tasks⟩

/-! ## The job of the plan -/

/-- The record has the id of the plan's job, or no job and no evidence. -/
structure Record.Of (job : Option Job) (r : Record) : Prop where
  jobId : r.jobId = job.map (·.id) ∨ r.jobId = none
  unstarted : r.jobId = none → r.finishedAt = none ∧ r.result = none ∧ r.tasks = none

def Write.Of (job : Option Job) : Write → Prop
  | .started snapshot answer _ =>
    snapshot.Of job ∧ snapshot.jobId = none ∧ job.map (·.id) = some answer.jobId
  | .polled snapshot _ _ _ => snapshot.Of job ∧ snapshot.jobId.isSome

def Call.Of (job : Option Job) : Call → Prop
  | .bound _ | .ended _ => True
  | .post snapshot => snapshot.Of job ∧ snapshot.jobId = none
  | .job _ snapshot | .run snapshot _ _ => snapshot.Of job ∧ snapshot.jobId.isSome
  | .save write => write.Of job

/-- Every copy of the record belongs to the plan's job. -/
structure Plan.Sound (s : Plan) : Prop where
  record : s.record.Of s.job
  calls : ∀ n call, s.calls n = some call → call.Of s.job

/-- Chamber has the same job as before, or its first. -/
def Later (job job' : Option Job) : Prop := job = none ∨ job'.map (·.id) = job.map (·.id)

theorem Later.refl (job : Option Job) : Later job job := Or.inr rfl

theorem Record.Of.later {job job' : Option Job} {r : Record} (h : r.Of job)
    (later : Later job job') : r.Of job' := by
  refine ⟨?_, h.unstarted⟩
  obtain hr | hr := h.jobId
  · obtain rfl | same := later
    · exact Or.inr hr
    · exact Or.inl (hr.trans same.symm)
  · exact Or.inr hr

theorem Write.Of.later {job job' : Option Job} {w : Write} (h : w.Of job) (later : Later job job') :
    w.Of job' := by
  cases w with
  | started snapshot answer now =>
    obtain ⟨read, unstarted, id⟩ := h
    refine ⟨read.later later, unstarted, ?_⟩
    obtain rfl | same := later
    · simp at id
    · exact same.trans id
  | polled snapshot answer now run => exact ⟨h.1.later later, h.2⟩

theorem Call.Of.later {job job' : Option Job} {call : Call} (h : call.Of job)
    (later : Later job job') : call.Of job' := by
  cases call with
  | bound | ended => trivial
  | post snapshot => exact ⟨h.1.later later, h.2⟩
  | job cancel snapshot => exact ⟨h.1.later later, h.2⟩
  | run snapshot answer now => exact ⟨h.1.later later, h.2⟩
  | save write => exact Write.Of.later h later

theorem Plan.Sound.moved {s t : Plan} {n : Nat} {call : Call} (h : s.Sound) (hc : call.Of t.job)
    (later : Later s.job t.job) (hr : t.record.Of t.job)
    (ht : t.calls = Function.update s.calls n (some call)) : t.Sound where
  record := hr
  calls m other hm := by
    rw [ht] at hm
    obtain ⟨rfl, rfl⟩ | ⟨-, hm⟩ := update_some_cases hm
    · exact hc
    · exact (h.calls m other hm).later later

theorem bound_of {job : Option Job} {r : Record} (h : r.Of job) (service : Option Service)
    (operation : Operation) : (bound r service operation).Of job := by
  cases operation with
  | start confirmedTarget confirmedFaults =>
    cases service with
    | none => trivial
    | some service =>
      simp only [bound]
      split_ifs with _ _ unstarted
      all_goals first | exact ⟨h, by simpa using unstarted⟩ | trivial
  | status cancel =>
    cases service with
    | none => trivial
    | some service =>
      simp only [bound]
      split_ifs with started
      all_goals first | exact ⟨h, started⟩ | trivial

theorem record_of {x : Formats} {job : Option Job} {w : Write} (h : w.Of job) :
    (w.record x).Of job := by
  cases w with
  | started snapshot answer now =>
    exact ⟨Or.inl h.2.2.symm, fun none => by simp [Write.record, started] at none⟩
  | polled snapshot answer now run =>
    have kept := record_polled_jobId x snapshot answer now run
    refine ⟨kept ▸ h.1.jobId, fun none => ?_⟩
    rw [kept] at none
    exact absurd h.2 (by simp [none])

theorem raises_of (job : Option Job) (status : Nat) (call : Call) :
    (raises status call).Of job := by
  unfold raises
  split <;> trivial

/-- What one step can do to the record: nothing, unless it saves. -/
theorem next_record {x : Formats} {s t : Plan} {l : Step} (h : next x s l = some t) :
    t.record = s.record ∨ ∃ n now write, l = .save n now ∧ s.calls n = some (.save write) ∧
      now < write.snapshot.createdAt + retention ∧ t.record = write.record x := by
  cases l with
  | save n now =>
    simp only [next] at h
    split at h
    case h_2 => cases h
    case h_1 write hw =>
      rw [Write.record_createdAt] at h
      split_ifs at h with expired
      · exact Or.inl (Option.some.inj h ▸ rfl)
      · exact Or.inr ⟨n, now, write, rfl, hw, not_le.mp expired, Option.some.inj h ▸ rfl⟩
  | call | read | run | raise | advance =>
    left
    simp only [next] at h
    split at h <;> first | cases h; rfl | cases h | skip
    all_goals split_ifs at h; exact Option.some.inj h ▸ rfl
  | post | job =>
    left
    simp only [next] at h
    split at h
    case h_2 => cases h
    split_ifs at h
    all_goals exact Option.some.inj h ▸ rfl

theorem Plan.Sound.next {x : Formats} {s t : Plan} {l : Step} (h : s.Sound)
    (hl : next x s l = some t) : t.Sound := by
  cases l with
  | call n operation =>
    simp only [LoadTests.next] at hl
    split at hl <;> cases hl
    exact h.moved (by exact trivial) (.refl _) h.record rfl
  | read n service =>
    simp only [LoadTests.next] at hl
    split at hl <;> cases hl
    exact h.moved (bound_of h.record service _) (.refl _) h.record rfl
  | post n id runId createdAt told now =>
    simp only [LoadTests.next] at hl
    split at hl
    case h_2 => cases hl
    case h_1 snapshot hn =>
      by_cases empty : (s.posted id).id = ""
      · rw [if_pos empty] at hl
        cases hl
      rw [if_neg empty] at hl
      obtain ⟨read, unstarted⟩ := h.calls n _ hn
      have later : Later s.job (some (s.posted id)) := by
        cases hj : s.job with
        | none => exact Or.inl rfl
        | some job => exact Or.inr (by simp [Plan.posted, hj])
      obtain rfl := Option.some.inj hl
      exact h.moved (by exact ⟨read.later later, unstarted, rfl⟩) later (h.record.later later) rfl
  | job n runId cancelRequested cleanupRequired output error now =>
    simp only [LoadTests.next] at hl
    split at hl
    case h_2 => cases hl
    case h_1 cancel snapshot job hn hj =>
      have read := h.calls n _ hn
      split_ifs at hl
      · obtain rfl := Option.some.inj hl
        exact h.moved (by exact read) (.refl _) h.record rfl
      · obtain rfl := Option.some.inj hl
        exact h.moved (by exact read) (.refl _) h.record rfl
  | run n answer =>
    simp only [LoadTests.next] at hl
    split at hl
    case h_2 => cases hl
    case h_1 snapshot job now hn =>
      have read := h.calls n _ hn
      obtain rfl := Option.some.inj hl
      exact h.moved (by exact read) (.refl _) h.record rfl
  | save n now =>
    simp only [LoadTests.next] at hl
    split at hl
    case h_2 => cases hl
    case h_1 write hn =>
      split_ifs at hl
      · obtain rfl := Option.some.inj hl
        exact h.moved (by exact trivial) (.refl _) h.record rfl
      · obtain rfl := Option.some.inj hl
        exact h.moved (by exact trivial) (.refl _) (record_of (h.calls n _ hn)) rfl
  | raise n status =>
    simp only [LoadTests.next] at hl
    split at hl
    case h_1 | h_2 => cases hl
    case h_3 call _ hn =>
      obtain rfl := Option.some.inj hl
      exact h.moved (raises_of _ status call) (.refl _) h.record rfl
  | advance state =>
    simp only [LoadTests.next] at hl
    split at hl
    case h_2 => cases hl
    case h_1 job hj =>
      split_ifs at hl
      obtain rfl := Option.some.inj hl
      have later : Later s.job (some { job with state }) := Or.inr (by simp [hj])
      exact ⟨h.record.later later, fun n call hn => (h.calls n call hn).later later⟩

/-! ## A write covers what is stored exactly if the record does not go backwards -/

theorem isSome_result (x : Formats) (snapshot : Record) (job : JobAnswer) (now : String)
    (run : Option (Option RunAnswer)) :
    (Write.record x (.polled snapshot job now run)).result.isSome ↔
      snapshot.result.isSome ∨ run.join.isSome := by
  rcases run with - | - | run <;>
    simp [Write.record, polled, withoutEvidence, evidenced]

theorem isSome_tasks (x : Formats) (snapshot : Record) (job : JobAnswer) (now : String)
    (run : Option (Option RunAnswer)) :
    (Write.record x (.polled snapshot job now run)).tasks.isSome ↔
      snapshot.tasks.isSome ∨ run.join.isSome := by
  rcases run with - | - | run <;>
    simp [Write.record, polled, withoutEvidence, evidenced]

theorem isSome_finishedAt (x : Formats) (snapshot : Record) (job : JobAnswer) (now : String)
    (run : Option (Option RunAnswer)) (ended : job.state ∈ terminalStates) :
    (Write.record x (.polled snapshot job now run)).finishedAt.isSome := by
  have set : (polled snapshot job now).finishedAt.isSome := by
    simp only [polled, ended, true_and]
    split_ifs with unset
    · rfl
    · cases hf : snapshot.finishedAt with
      | none => simp [hf] at unset
      | some at' => rfl
  rcases run with - | - | run
  · exact set
  · exact set
  · simp only [Write.record, evidenced]
    split_ifs
    · simp [set]
    · exact set

/-- Both copies have the id of the one job. -/
theorem jobId_kept {x : Formats} {job : Option Job} {stored : Record} {w : Write}
    (hs : stored.Of job) (hw : w.Of job) {id : String} (h : stored.jobId = some id) :
    (w.record x).jobId = some id := by
  have hj : job.map (·.id) = some id := by
    obtain same | none := hs.jobId
    · exact same.symm.trans h
    · rw [none] at h
      cases h
  obtain same | none := (record_of (x := x) hw).jobId
  · exact same.trans hj
  · cases w with
    | started snapshot answer now => exact absurd none (by simp [Write.record, started])
    | polled snapshot answer now run =>
      rw [record_polled_jobId] at none
      exact absurd hw.2 (by simp [none])

theorem keeps_iff_covers (x : Formats) {job : Option Job} {stored : Record} {w : Write}
    (hs : stored.Of job) (hw : w.Of job) : stored.Keeps (w.record x) ↔ w.Covers stored := by
  cases w with
  | started snapshot answer now =>
    obtain ⟨finishedAt, result, tasks⟩ := hw.1.unstarted hw.2.1
    constructor
    · intro h ended
      obtain ⟨hf, hr, ht⟩ := h.evidence ended
      refine ⟨h.terminal ended, ?_, ?_, ?_⟩
      · simpa [Write.record, started, finishedAt] using hf
      · simpa [Write.record, started, result] using hr
      · simpa [Write.record, started, tasks] using ht
    · intro h
      refine ⟨fun id => jobId_kept hs hw, fun ended => (h ended).1, fun ended => ?_⟩
      obtain ⟨-, hf, hr, ht⟩ := h ended
      exact ⟨by simp [hf], by simp [hr], by simp [ht]⟩
  | polled snapshot answer now run =>
    have same : (Write.record x (.polled snapshot answer now run)).Terminal ↔
        answer.state ∈ terminalStates := by
      rw [Record.Terminal, record_polled_state]
    constructor
    · intro h ended
      have kept := h.evidence ended
      exact ⟨same.mp (h.terminal ended), fun hr => (isSome_result ..).mp (kept.result hr),
        fun ht => (isSome_tasks ..).mp (kept.tasks ht)⟩
    · intro h
      refine ⟨fun id => jobId_kept hs hw, fun ended => same.mpr (h ended).1, fun ended => ?_⟩
      obtain ⟨answered, hr, ht⟩ := h ended
      exact ⟨fun _ => isSome_finishedAt x snapshot answer now run answered,
        fun stored => (isSome_result ..).mpr (hr stored),
        fun stored => (isSome_tasks ..).mpr (ht stored)⟩

theorem sound_initial (environment : String) (createdAt : Int) (target faults : Bool) :
    (Plan.initial (planned environment createdAt target faults)).Sound where
  record := ⟨Or.inr rfl, fun _ => ⟨rfl, rfl, rfl⟩⟩
  calls _ _ h := nomatch h

/-- One step from a sound state keeps the record if and only if it is covered. -/
theorem step_keeps_iff {x : Formats} {s t : Plan} {l : Step} (h : s.Sound)
    (hl : next x s l = some t) : s.record.Keeps t.record ↔ Covered s l := by
  constructor
  · intro kept
    cases l with
    | save n now =>
      intro call hn
      cases call with
      | save write => ?_
      | _ => trivial
      intro intime
      rw [Option.mem_def] at hn
      simp only [next, hn, Write.record_createdAt, not_le.mpr intime, if_false] at hl
      obtain rfl := Option.some.inj hl
      exact (keeps_iff_covers x h.record (h.calls n _ hn)).mp kept
    | _ => trivial
  · intro covered
    obtain same | ⟨n, now, write, rfl, hn, intime, wrote⟩ := next_record hl
    · exact same ▸ Record.Keeps.refl _
    · rw [wrote]
      exact (keeps_iff_covers x h.record (h.calls n _ hn)).mpr (covered (.save write) hn intime)

theorem run_keeps {x : Formats} {s t : Plan} {ls : List Step} (h : s.Sound)
    (covered : (machine x).Along Covered s ls) (run : (machine x).exec s ls = some t) :
    s.record.Keeps t.record := by
  have both : t.Sound ∧ s.record.Keeps t.record := by
    refine (machine x).invariant_along (I := fun u => u.Sound ∧ s.record.Keeps u.record)
      (fun u l v ⟨sound, kept⟩ ok hv => ⟨sound.next hv, ?_⟩) ⟨h, .refl _⟩ covered run
    exact kept.trans ((step_keeps_iff sound hv).mpr ok)
  exact both.2

theorem run_sound {x : Formats} {s t : Plan} {ls : List Step} (h : s.Sound)
    (run : (machine x).exec s ls = some t) : t.Sound :=
  (machine x).invariant (fun _ _ _ sound hv => sound.next hv) h run

/-- Whatever part of the run is looked at, the record has not gone backwards over it. -/
def NeverBackwards (x : Formats) (s : Plan) (ls : List Step) : Prop :=
  ∀ before during after a b, ls = before ++ during ++ after →
    (machine x).exec s before = some a → (machine x).exec a during = some b →
      a.record.Keeps b.record

theorem NeverBackwards.along {x : Formats} {s t : Plan} {ls : List Step} (h : s.Sound)
    (kept : NeverBackwards x s ls) (run : (machine x).exec s ls = some t) :
    (machine x).Along Covered s ls := by
  induction ls generalizing s with
  | nil => trivial
  | cons l ls ih =>
    obtain ⟨u, hu, rest⟩ := Option.bind_eq_some_iff.mp run
    have first : s.record.Keeps u.record :=
      kept [] [l] ls s u rfl rfl (by simp [Machine.exec, hu])
    refine .cons ((step_keeps_iff h hu).mp first) hu (ih (h.next hu) ?_ rest)
    intro before during after a b hls ha hb
    refine kept (l :: before) during after a b (by simp [hls]) ?_ hb
    rw [Machine.exec_cons, hu]
    exact ha

theorem record_never_backwards_iff (x : Formats) (environment : String) (createdAt : Int)
    (requiresTarget requiresFault : Bool) (ls : List Step) (t : Plan)
    (run : (machine x).exec
      (.initial (planned environment createdAt requiresTarget requiresFault)) ls = some t) :
    NeverBackwards x (.initial (planned environment createdAt requiresTarget requiresFault)) ls ↔
      (machine x).Along Covered
        (.initial (planned environment createdAt requiresTarget requiresFault)) ls := by
  have sound := sound_initial environment createdAt requiresTarget requiresFault
  constructor
  · exact fun kept => kept.along sound run
  · rintro covered before during after a b rfl ha hb
    rw [List.append_assoc] at covered
    have middle := (covered.of_append ha).2
    exact run_keeps (run_sound sound ha) (middle.of_append hb).1 hb

/-- Texts as they come. -/
def plainFormats : Formats := ⟨id, some⟩

def evidence : RunAnswer := ⟨none, [("status", .str "passed")], [], none, false⟩

def devPlan : Plan := .initial (planned "dev" 0 false false)

/-- Two polls overlap. Both are answered once the job has completed, and the one that read its
snapshot before saves last. -/
def polledTwice : List Step :=
  [.call 0 (.start false false), .read 0 (some ⟨"dev", false⟩),
    .post 0 "job" (some "run") none true "t0", .save 0 1, .advance "running",
    .call 1 (.status false), .read 1 (some ⟨"dev", false⟩), .advance "completed",
    .job 1 (some "run") none none none none "t1",
    .call 2 (.status false), .read 2 (some ⟨"dev", false⟩),
    .job 2 (some "run") none none none none "t2", .run 2 (some evidence), .save 2 3,
    .run 1 (some evidence), .save 1 4]

/-- The first poll is answered while the job runs and saves after the second. -/
def overtaken : List Step :=
  [.call 0 (.start false false), .read 0 (some ⟨"dev", false⟩),
    .post 0 "job" (some "run") none true "t0", .save 0 1, .advance "running",
    .call 1 (.status false), .read 1 (some ⟨"dev", false⟩),
    .job 1 (some "run") none none none none "t1",
    .advance "completed",
    .call 2 (.status false), .read 2 (some ⟨"dev", false⟩),
    .job 2 (some "run") none none none none "t2", .run 2 (some evidence), .save 2 3,
    .run 1 none, .save 1 4]

theorem polled_twice_never_backwards :
    ((machine plainFormats).exec devPlan polledTwice).map (·.record.state) = some "completed" ∧
      NeverBackwards plainFormats devPlan polledTwice := by
  have run : ((machine plainFormats).exec devPlan polledTwice).map (·.record.state) =
      some "completed" := by decide
  obtain ⟨t, ht, -⟩ := Option.map_eq_some_iff.mp run
  refine ⟨run,
    (record_never_backwards_iff plainFormats "dev" 0 false false polledTwice t ht).mpr ?_⟩
  decide

theorem overtaken_poll_goes_backwards : ¬ NeverBackwards plainFormats devPlan overtaken := by
  intro kept
  have ended : ((machine plainFormats).exec devPlan (overtaken.take 14)).map
      (fun p => decide p.record.Terminal) = some true := by decide
  have running : ((machine plainFormats).exec devPlan overtaken).map
      (fun p => decide p.record.Terminal) = some false := by decide
  obtain ⟨a, ha, terminal⟩ := Option.map_eq_some_iff.mp ended
  obtain ⟨b, hb, other⟩ := Option.map_eq_some_iff.mp running
  have split : overtaken = overtaken.take 14 ++ overtaken.drop 14 ++ [] := by simp
  rw [split, List.append_nil, Machine.exec_append, ha] at hb
  exact of_decide_eq_false other
    ((kept _ _ [] a b split ha hb).terminal (of_decide_eq_true terminal))

end Relayna.Studio.LoadTests
