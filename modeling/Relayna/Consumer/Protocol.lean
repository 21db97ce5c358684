import Relayna.Consumer.Effects

/-!
# The life of one delivery

What a consumer may do with a message, said once for the three of them. A delivery is open
until the handler has run; then it has succeeded, asked for a manual retry, or failed; a
failed one is copied to the retry queue or to the dead-letter queue; at last it is closed by
one ack or one reject. Everything else a consumer awaits is auxiliary and changes nothing.

`Advance` is the rule and `Reaches` its runs. What follows from them holds of every consumer
that keeps to the rule.
-/
namespace Relayna.Consumer

open Python Contracts Await

def Op.settles : Op → Bool
  | .ack | .reject _ => true
  | _ => false

def Op.isHandler : Op → Bool
  | .handler _ | .workflowHandler .. => true
  | _ => false

def Op.auxiliary : Op → Bool
  | .handler _ | .workflowHandler .. | .publishRaw .. | .publishTask _ | .ack | .reject _ => false
  | _ => true

/-- A message that has reached the queue. -/
def publishedTo (queueName : String) : Event → Bool
  | ⟨.publishRaw name _, .ok _⟩ => name == queueName
  | _ => false

theorem exists_of_publishedTo {queueName : String} {e : Event}
    (h : publishedTo queueName e = true) : ∃ copy, e = ⟨.publishRaw queueName copy, .ok ()⟩ := by
  obtain ⟨op, answer⟩ := e
  cases op with
  | publishRaw name copy =>
    cases answer with
    | ok answer =>
      obtain rfl : name = queueName := beq_iff_eq.mp h
      exact ⟨copy, rfl⟩
    | error exc => exact nomatch h
  | _ => exact nomatch h

/-- An exception that the retry machinery answers. -/
def Exc.isFailure : Exc → Bool
  | .timeoutError _ | .error .. => true
  | _ => false

def handlerFailed : Event → Bool
  | ⟨.handler _, .error exc⟩ | ⟨.workflowHandler .., .error exc⟩ => exc.isFailure
  | _ => false

/-- What is known of a delivery before it is handled. `kept` are the headers of a copy after a
failure, but for the retry headers; `items` are the messages of a batch envelope, each with what
preparing it raises. -/
structure Plan extends Delivery where
  maxRetries : Option Int
  kept : Dict
  items : Option (List (Except Exc Op))

abbrev Plan.attempt (p : Plan) : Int := p.metadata.retryAttempt

/-- A copy of the message with the given attempt: the same body, and these headers but for the
retry headers, which are written anew. -/
def Plan.IsCopy (p : Plan) (kept : Dict) (attempt : Int) (copy : Outgoing) : Prop :=
  copy.body = p.message.body ∧
    ∃ maxRetries reason exceptionType, copy.headers =
      retryHeaders kept p.sourceQueueName attempt maxRetries reason exceptionType []

namespace Plan.IsCopy

variable {p : Plan} {kept : Dict} {attempt : Int} {copy : Outgoing}

theorem body (h : p.IsCopy kept attempt copy) : copy.body = p.message.body := h.1

theorem attempt_eq (h : p.IsCopy kept attempt copy) :
    copy.headers "x-relayna-retry-attempt" = some (.int attempt) := by
  obtain ⟨-, maxRetries, reason, exceptionType, written⟩ := h
  rw [written, retryHeaders_attempt]

theorem carried (h : p.IsCopy kept attempt copy) {key : String} (retry : key ∉ retryHeaderNames) :
    copy.headers key = kept key := by
  obtain ⟨-, maxRetries, reason, exceptionType, written⟩ := h
  rw [written, retryHeaders_of_notMem _ _ _ _ _ _ _ retry, List.foldl_nil]

end Plan.IsCopy

/-- `opened` keeps the items of a batch that have been published, `deadLettered` whether the
handler has run, and `closed` what the delivery was before. -/
inductive Phase where
  | opened (published : List Op)
  | succeeded
  | handover (request : ManualRetryRequest)
  | failed
  | retried
  | deadLettered (ran : Bool)
  | closed (before : Phase)

/-- Where a delivery may be acked. -/
def Phase.Ackable (p : Plan) : Phase → Prop
  | .opened published =>
    ∃ items, p.items = some items ∧ ∀ item ∈ items, ∃ op ∈ published, item = .ok op
  | .succeeded | .retried | .deadLettered _ => True
  | _ => False

inductive Advance (p : Plan) : Phase → Event → Phase → Prop where
  | auxiliary {phase : Phase} {e : Event} : e.op.auxiliary = true → Advance p phase e phase
  | returned {context : TaskContext} {request : Option ManualRetryRequest} :
      request = none ∨ context.isTaskContext = false →
      Advance p (.opened []) ⟨.handler context, .ok request⟩ .succeeded
  | stageReturned {context : WorkflowContext} {timeout : Option Python.Float} :
      Advance p (.opened []) ⟨.workflowHandler context timeout, .ok ()⟩ .succeeded
  | requested {context : TaskContext} {request : ManualRetryRequest} :
      Advance p (.opened []) ⟨.handler context, .ok (some request)⟩ (.handover request)
  | requestedByRaise {context : TaskContext} {request : ManualRetryRequest} :
      Advance p (.opened []) ⟨.handler context, .error (.manualRetryRequested request)⟩
        (.handover request)
  | raised {context : TaskContext} {exc : Exc} :
      Advance p (.opened []) ⟨.handler context, .error exc⟩ .failed
  | stageRaised {context : WorkflowContext} {timeout : Option Python.Float} {exc : Exc} :
      Advance p (.opened []) ⟨.workflowHandler context timeout, .error exc⟩ .failed
  | handedOver {request : ManualRetryRequest} :
      Advance p (.handover request) ⟨.publishTask request, .ok ()⟩ .succeeded
  | notHandedOver {request : ManualRetryRequest} {exc : Exc} :
      Advance p (.handover request) ⟨.publishTask request, .error exc⟩ .failed
  | retried {infrastructure : RetryInfrastructure} {maxRetries : Int} {copy : Outgoing} :
      p.retryInfrastructure = some infrastructure → p.maxRetries = some maxRetries →
      p.attempt < maxRetries → p.IsCopy p.kept (p.attempt + 1) copy →
      Advance p .failed ⟨.publishRaw infrastructure.retryQueueName copy, .ok ()⟩ .retried
  | refused {infrastructure : RetryInfrastructure} {copy : Outgoing} :
      p.retryInfrastructure = some infrastructure → p.IsCopy p.metadata.headers p.attempt copy →
      Advance p (.opened []) ⟨.publishRaw infrastructure.deadLetterQueueName copy, .ok ()⟩
        (.deadLettered false)
  | deadLettered {infrastructure : RetryInfrastructure} {maxRetries : Int} {copy : Outgoing} :
      p.retryInfrastructure = some infrastructure → p.maxRetries = some maxRetries →
      maxRetries ≤ p.attempt → p.IsCopy p.kept p.attempt copy →
      Advance p .failed ⟨.publishRaw infrastructure.deadLetterQueueName copy, .ok ()⟩
        (.deadLettered true)
  | notPublished {phase : Phase} {queueName : String} {copy : Outgoing} {exc : Exc} :
      Advance p phase ⟨.publishRaw queueName copy, .error exc⟩ phase
  | expanded {items : List (Except Exc Op)} {item : Outgoing} {published : List Op} :
      p.items = some items → .ok (.publishRaw p.sourceQueueName item) ∈ items →
      Advance p (.opened published) ⟨.publishRaw p.sourceQueueName item, .ok ()⟩
        (.opened (.publishRaw p.sourceQueueName item :: published))
  | acked {phase : Phase} {answer : Except Exc Unit} :
      phase.Ackable p → Advance p phase ⟨.ack, answer⟩ (.closed phase)
  | rejected {requeue : Bool} {answer : Except Exc Unit} :
      Advance p (.opened []) ⟨.reject requeue, answer⟩ (.closed (.opened []))
  | abandoned {requeue : Bool} {answer : Except Exc Unit} :
      p.maxRetries = none → Advance p .failed ⟨.reject requeue, answer⟩ (.closed .failed)

inductive Reaches (p : Plan) : List Event → Phase → Prop where
  | start : Reaches p [] (.opened [])
  | snoc {past : List Event} {e : Event} {phase next : Phase} :
      Reaches p past phase → Advance p phase e next → Reaches p (past ++ [e]) next

section Auxiliary

variable {e : Event}

theorem settles_of_auxiliary (h : e.op.auxiliary = true) : e.op.settles = false := by
  cases hop : e.op <;> simp_all [Op.auxiliary, Op.settles]

theorem isHandler_of_auxiliary (h : e.op.auxiliary = true) : e.op.isHandler = false := by
  cases hop : e.op <;> simp_all [Op.auxiliary, Op.isHandler]

theorem publishedTo_of_auxiliary (queueName : String) (h : e.op.auxiliary = true) :
    publishedTo queueName e = false := by
  obtain ⟨op, answer⟩ := e
  cases op <;> simp_all [Op.auxiliary, publishedTo]

theorem handlerFailed_of_auxiliary (h : e.op.auxiliary = true) : handlerFailed e = false := by
  obtain ⟨op, answer⟩ := e
  cases op <;> simp_all [Op.auxiliary, handlerFailed]

end Auxiliary

namespace Phase

def settlements : Phase → Nat
  | .closed _ => 1
  | _ => 0

def handlerRuns : Phase → Nat
  | .opened _ | .deadLettered false => 0
  | .closed before => before.handlerRuns
  | _ => 1

theorem handlerRuns_le (phase : Phase) : phase.handlerRuns ≤ 1 := by
  induction phase with
  | closed before ih => exact ih
  | deadLettered ran => cases ran <;> simp [handlerRuns]
  | _ => simp [handlerRuns]

def retryCopies : Phase → Nat
  | .retried => 1
  | .closed before => before.retryCopies
  | _ => 0

/-- Where the dead-letter queue is the source queue, the items of a batch count, too. -/
def deadLetterCopies (ofSource : Bool) : Phase → Nat
  | .deadLettered _ => 1
  | .opened published => if ofSource then published.length else 0
  | .closed before => before.deadLetterCopies ofSource
  | _ => 0

/-- The handler has failed. -/
def faulted : Phase → Bool
  | .failed | .retried | .deadLettered true => true
  | .closed before => before.faulted
  | _ => false

/-- What the decision about a failed delivery was based on. -/
def Legal (p : Plan) : Phase → Prop
  | .retried => ∃ maxRetries, p.maxRetries = some maxRetries ∧ p.attempt < maxRetries
  | .deadLettered true => ∃ maxRetries, p.maxRetries = some maxRetries ∧ maxRetries ≤ p.attempt
  | .closed .failed => p.maxRetries = none
  | .closed (.closed _) => False
  | .closed before => before.Legal p
  | _ => True

end Phase

variable {p : Plan} {past : List Event} {phase next : Phase} {e : Event}

theorem Phase.Ackable.settlements_eq (h : phase.Ackable p) : phase.settlements = 0 := by
  cases phase <;> first | rfl | exact h.elim

theorem Advance.settlements (h : Advance p phase e next) :
    next.settlements = phase.settlements + if e.op.settles then 1 else 0 := by
  cases h with
  | auxiliary aux => simp [settles_of_auxiliary aux]
  | acked ackable =>
    rw [ackable.settlements_eq]
    rfl
  | _ => rfl

theorem Advance.handlerRuns (h : Advance p phase e next) :
    next.handlerRuns = phase.handlerRuns + if e.op.isHandler then 1 else 0 := by
  cases h with
  | auxiliary aux => simp [isHandler_of_auxiliary aux]
  | _ => rfl

/-- The retry queue is a queue of its own. It is declared with a time to live and a dead-letter
route, the dead-letter queue and the source queue are not, and the broker refuses to declare one
queue in two ways. -/
def Plan.Separate (p : Plan) : Prop :=
  ∀ infrastructure, p.retryInfrastructure = some infrastructure →
    infrastructure.retryQueueName ≠ infrastructure.deadLetterQueueName ∧
      infrastructure.retryQueueName ≠ p.sourceQueueName

section Copies

variable {infrastructure : RetryInfrastructure}

theorem Advance.retryCopies (sep : p.Separate) (hi : p.retryInfrastructure = some infrastructure)
    (h : Advance p phase e next) :
    next.retryCopies =
      phase.retryCopies + if publishedTo infrastructure.retryQueueName e then 1 else 0 := by
  obtain ⟨hrd, hrs⟩ := sep infrastructure hi
  cases h with
  | auxiliary aux => simp [publishedTo_of_auxiliary _ aux]
  | retried hi' =>
    obtain rfl := Option.some.inj (hi.symm.trans hi')
    simp [Phase.retryCopies, publishedTo]
  | refused hi' =>
    obtain rfl := Option.some.inj (hi.symm.trans hi')
    simp [Phase.retryCopies, publishedTo, hrd.symm]
  | deadLettered hi' =>
    obtain rfl := Option.some.inj (hi.symm.trans hi')
    simp [Phase.retryCopies, publishedTo, hrd.symm]
  | expanded => simp [Phase.retryCopies, publishedTo, hrs.symm]
  | _ => rfl

theorem Advance.deadLetterCopies (sep : p.Separate)
    (hi : p.retryInfrastructure = some infrastructure) (h : Advance p phase e next) :
    next.deadLetterCopies (p.sourceQueueName == infrastructure.deadLetterQueueName) =
      phase.deadLetterCopies (p.sourceQueueName == infrastructure.deadLetterQueueName) +
        if publishedTo infrastructure.deadLetterQueueName e then 1 else 0 := by
  obtain ⟨hrd, -⟩ := sep infrastructure hi
  cases h with
  | auxiliary aux => simp [publishedTo_of_auxiliary _ aux]
  | retried hi' =>
    obtain rfl := Option.some.inj (hi.symm.trans hi')
    simp [Phase.deadLetterCopies, publishedTo, hrd]
  | refused hi' =>
    obtain rfl := Option.some.inj (hi.symm.trans hi')
    simp [Phase.deadLetterCopies, publishedTo]
  | deadLettered hi' =>
    obtain rfl := Option.some.inj (hi.symm.trans hi')
    simp [Phase.deadLetterCopies, publishedTo]
  | expanded =>
    by_cases same : p.sourceQueueName = infrastructure.deadLetterQueueName <;>
      simp [Phase.deadLetterCopies, publishedTo, same]
  | _ => simp [Phase.deadLetterCopies, publishedTo]

/-- Only a failed delivery is copied to the retry queue, and the copy is the next attempt. -/
theorem Advance.isCopy (sep : p.Separate) (hi : p.retryInfrastructure = some infrastructure)
    {copy : Outgoing} {answer : Unit}
    (h : Advance p phase ⟨.publishRaw infrastructure.retryQueueName copy, .ok answer⟩ next) :
    (∃ maxRetries, p.maxRetries = some maxRetries ∧ p.attempt < maxRetries) ∧
      p.IsCopy p.kept (p.attempt + 1) copy := by
  obtain ⟨hrd, hrs⟩ := sep infrastructure hi
  generalize he : (⟨.publishRaw infrastructure.retryQueueName copy, .ok answer⟩ : Event) = e at h
  cases h with
  | auxiliary aux => simp [← he, Op.auxiliary] at aux
  | retried hi' hm lt isCopy =>
    injection he with hop
    exact ⟨⟨_, hm, lt⟩, (Op.publishRaw.inj hop).2 ▸ isCopy⟩
  | refused hi' | deadLettered hi' =>
    obtain rfl := Option.some.inj (hi.symm.trans hi')
    injection he with hop
    exact (hrd (Op.publishRaw.inj hop).1).elim
  | expanded =>
    injection he with hop
    exact (hrs (Op.publishRaw.inj hop).1).elim
  | _ => cases he

end Copies

theorem Advance.faulted_of_failed (h : Advance p phase e next) (failed : handlerFailed e = true) :
    next.faulted = true := by
  cases h with
  | auxiliary aux => simp [handlerFailed_of_auxiliary aux] at failed
  | raised | stageRaised => rfl
  | _ => simp [handlerFailed, Exc.isFailure] at failed

theorem Advance.faulted_mono (h : Advance p phase e next) (faulted : phase.faulted = true) :
    next.faulted = true := by
  cases h with
  | auxiliary | notPublished | acked | abandoned => exact faulted
  | retried | deadLettered => rfl
  | _ => simp [Phase.faulted] at faulted

theorem Advance.legal (h : Advance p phase e next) (legal : phase.Legal p) : next.Legal p := by
  cases h with
  | auxiliary | notPublished => exact legal
  | retried _ hm lt => exact ⟨_, hm, lt⟩
  | deadLettered _ hm le => exact ⟨_, hm, le⟩
  | abandoned hm => exact hm
  | acked ackable =>
    cases phase with
    | failed | closed => exact ackable.elim
    | _ => exact legal
  | _ => trivial

namespace Reaches

/-- What every step adds up to. -/
theorem countP {f : Event → Bool} {tally : Phase → Nat} (start : tally (.opened []) = 0)
    (step : ∀ {phase e next}, Advance p phase e next →
      tally next = tally phase + if f e then 1 else 0)
    (h : Reaches p past phase) : past.countP f = tally phase := by
  induction h with
  | start => exact start.symm
  | snoc _ advance ih => simp [List.countP_append, ih, step advance, List.countP_singleton]

/-- What every step keeps. -/
theorem invariant {J : Phase → Prop} (start : J (.opened []))
    (step : ∀ {phase e next}, Advance p phase e next → J phase → J next)
    (h : Reaches p past phase) : J phase := by
  induction h with
  | start => exact start
  | snoc _ advance ih => exact step advance ih

/-- What every event satisfies. -/
theorem forall_mem {R : Event → Prop} (step : ∀ {phase e next}, Advance p phase e next → R e)
    (h : Reaches p past phase) : ∀ e ∈ past, R e := by
  induction h with
  | start => simp
  | snoc _ advance ih =>
    intro e he
    obtain he | he := List.mem_append.mp he
    · exact ih e he
    · exact List.mem_singleton.mp he ▸ step advance

theorem settlements (h : Reaches p past phase) :
    past.countP (·.op.settles) = phase.settlements :=
  h.countP rfl Advance.settlements

theorem handlerRuns (h : Reaches p past phase) :
    past.countP (·.op.isHandler) = phase.handlerRuns :=
  h.countP rfl Advance.handlerRuns

section Copies

variable {infrastructure : RetryInfrastructure}

theorem retryCopies (sep : p.Separate) (hi : p.retryInfrastructure = some infrastructure)
    (h : Reaches p past phase) :
    past.countP (publishedTo infrastructure.retryQueueName) = phase.retryCopies :=
  h.countP rfl (Advance.retryCopies sep hi)

theorem deadLetterCopies (sep : p.Separate) (hi : p.retryInfrastructure = some infrastructure)
    (h : Reaches p past phase) :
    past.countP (publishedTo infrastructure.deadLetterQueueName) =
      phase.deadLetterCopies (p.sourceQueueName == infrastructure.deadLetterQueueName) :=
  h.countP (by simp [Phase.deadLetterCopies]) (Advance.deadLetterCopies sep hi)

theorem isCopy (sep : p.Separate) (hi : p.retryInfrastructure = some infrastructure)
    (h : Reaches p past phase) {copy : Outgoing} {answer : Unit}
    (he : ⟨.publishRaw infrastructure.retryQueueName copy, .ok answer⟩ ∈ past) :
    (∃ maxRetries, p.maxRetries = some maxRetries ∧ p.attempt < maxRetries) ∧
      p.IsCopy p.kept (p.attempt + 1) copy := by
  have all := h.forall_mem (R := fun e =>
    ∀ copy answer, e = ⟨.publishRaw infrastructure.retryQueueName copy, .ok answer⟩ →
      (∃ maxRetries, p.maxRetries = some maxRetries ∧ p.attempt < maxRetries) ∧
        p.IsCopy p.kept (p.attempt + 1) copy) (by
    rintro phase _ next advance copy answer rfl
    exact advance.isCopy sep hi)
  exact all _ he copy answer rfl

end Copies

theorem legal (h : Reaches p past phase) : phase.Legal p :=
  h.invariant trivial Advance.legal

/-- What a failed delivery is closed as where there is a retry policy. -/
theorem closed_of_faulted {before : Phase} {maxRetries : Int}
    (h : Reaches p past (.closed before)) (hm : p.maxRetries = some maxRetries)
    (faulted : before.faulted = true) :
    (before = .retried ∧ p.attempt < maxRetries) ∨
      (before = .deadLettered true ∧ maxRetries ≤ p.attempt) := by
  have legal := h.legal
  cases before with
  | failed => exact nomatch hm.symm.trans legal
  | retried =>
    obtain ⟨maxRetries', hm', lt⟩ := legal
    obtain rfl := Option.some.inj (hm.symm.trans hm')
    exact Or.inl ⟨rfl, lt⟩
  | deadLettered ran =>
    cases ran with
    | true =>
      obtain ⟨maxRetries', hm', le⟩ := legal
      obtain rfl := Option.some.inj (hm.symm.trans hm')
      exact Or.inr ⟨rfl, le⟩
    | false => exact nomatch faulted
  | closed => exact legal.elim
  | _ => exact nomatch faulted

theorem faulted (h : Reaches p past phase) (he : e ∈ past) (failed : handlerFailed e = true) :
    phase.faulted = true := by
  induction h with
  | start => simp at he
  | snoc _ advance ih =>
    obtain he | he := List.mem_append.mp he
    · exact advance.faulted_mono (ih he)
    · exact advance.faulted_of_failed (List.mem_singleton.mp he ▸ failed)

end Reaches

/-- What has become of the message: the handler has returned, the manual retry it asked for is
published, a copy is in the retry queue or the dead-letter queue, or every message of the batch
is in the source queue. -/
inductive Disposed (p : Plan) (past : List Event) : Prop where
  | returned {context : TaskContext} {request : Option ManualRetryRequest} :
      (⟨.handler context, .ok request⟩ : Event) ∈ past →
      request = none ∨ context.isTaskContext = false → Disposed p past
  | stageReturned {context : WorkflowContext} {timeout : Option Python.Float} :
      (⟨.workflowHandler context timeout, .ok ()⟩ : Event) ∈ past → Disposed p past
  | handedOver {context : TaskContext} {request : ManualRetryRequest}
      {answer : Except Exc (Option ManualRetryRequest)} :
      (⟨.handler context, answer⟩ : Event) ∈ past →
      answer = .ok (some request) ∨ answer = .error (.manualRetryRequested request) →
      (⟨.publishTask request, .ok ()⟩ : Event) ∈ past → Disposed p past
  | copied {infrastructure : RetryInfrastructure} {queueName : String} {copy : Outgoing} :
      p.retryInfrastructure = some infrastructure →
      queueName = infrastructure.retryQueueName ∨ queueName = infrastructure.deadLetterQueueName →
      copy.body = p.message.body →
      (⟨.publishRaw queueName copy, .ok ()⟩ : Event) ∈ past → Disposed p past
  | expanded {items : List (Except Exc Op)} :
      p.items = some items →
      (∀ item ∈ items, ∃ message, item = .ok (.publishRaw p.sourceQueueName message) ∧
        (⟨.publishRaw p.sourceQueueName message, .ok ()⟩ : Event) ∈ past) →
      Disposed p past

theorem Disposed.mono {rest : List Event} (h : Disposed p past) : Disposed p (past ++ rest) := by
  cases h with
  | returned he hr => exact .returned (List.mem_append_left _ he) hr
  | stageReturned he => exact .stageReturned (List.mem_append_left _ he)
  | handedOver he hr hp =>
    exact .handedOver (List.mem_append_left _ he) hr (List.mem_append_left _ hp)
  | copied hi hq hb he => exact .copied hi hq hb (List.mem_append_left _ he)
  | expanded hi he =>
    refine .expanded hi fun item hm => ?_
    obtain ⟨message, rfl, hmem⟩ := he item hm
    exact ⟨message, rfl, List.mem_append_left _ hmem⟩

/-- What a phase says about the past. -/
def Phase.Evidence (p : Plan) (past : List Event) : Phase → Prop
  | .opened published => ∀ op ∈ published, ∃ message, op = .publishRaw p.sourceQueueName message ∧
      (⟨.publishRaw p.sourceQueueName message, .ok ()⟩ : Event) ∈ past
  | .handover request => ∃ context answer, (⟨.handler context, answer⟩ : Event) ∈ past ∧
      (answer = .ok (some request) ∨ answer = .error (.manualRetryRequested request))
  | .succeeded | .retried | .deadLettered _ => Disposed p past
  | .failed | .closed _ => True

theorem Phase.Evidence.mono {rest : List Event} (h : phase.Evidence p past) :
    phase.Evidence p (past ++ rest) := by
  cases phase with
  | opened published =>
    intro op hop
    obtain ⟨message, rfl, hmem⟩ := h op hop
    exact ⟨message, rfl, List.mem_append_left _ hmem⟩
  | handover request =>
    obtain ⟨context, answer, hmem, hr⟩ := h
    exact ⟨context, answer, List.mem_append_left _ hmem, hr⟩
  | succeeded | retried | deadLettered => exact Disposed.mono h
  | failed | closed => trivial

theorem Phase.Evidence.disposed (h : phase.Evidence p past) (ackable : phase.Ackable p) :
    Disposed p past := by
  cases phase with
  | opened published =>
    obtain ⟨items, hi, all⟩ := ackable
    refine .expanded hi fun item hm => ?_
    obtain ⟨op, hop, rfl⟩ := all item hm
    obtain ⟨message, rfl, hmem⟩ := h op hop
    exact ⟨message, rfl, hmem⟩
  | succeeded | retried | deadLettered => exact h
  | _ => exact ackable.elim

theorem Advance.evidence (h : Advance p phase e next) (evidence : phase.Evidence p past) :
    next.Evidence p (past ++ [e]) := by
  have here : e ∈ past ++ [e] := List.mem_append_right _ (List.mem_singleton_self e)
  cases h with
  | auxiliary | notPublished => exact evidence.mono
  | returned hr => exact .returned here hr
  | stageReturned => exact .stageReturned here
  | requested => exact ⟨_, _, here, Or.inl rfl⟩
  | requestedByRaise => exact ⟨_, _, here, Or.inr rfl⟩
  | handedOver =>
    obtain ⟨context, answer, hmem, hr⟩ := evidence
    exact .handedOver (List.mem_append_left _ hmem) hr here
  | retried hi _ _ copy => exact .copied hi (Or.inl rfl) copy.1 here
  | refused hi copy => exact .copied hi (Or.inr rfl) copy.1 here
  | deadLettered hi _ _ copy => exact .copied hi (Or.inr rfl) copy.1 here
  | expanded =>
    intro op hop
    obtain rfl | hop := List.mem_cons.mp hop
    · exact ⟨_, rfl, here⟩
    · exact evidence.mono op hop
  | _ => trivial

theorem Reaches.evidence (h : Reaches p past phase) : phase.Evidence p past := by
  induction h with
  | start => intro op hop; simp at hop
  | snoc _ advance ih => exact advance.evidence ih

/-- A dead-lettered delivery has left a copy of the same attempt. -/
def Phase.Buried (p : Plan) (past : List Event) : Phase → Prop
  | .deadLettered _ => ∃ infrastructure kept copy, p.retryInfrastructure = some infrastructure ∧
      p.IsCopy kept p.attempt copy ∧
      (⟨.publishRaw infrastructure.deadLetterQueueName copy, .ok ()⟩ : Event) ∈ past
  | .closed before => before.Buried p past
  | _ => True

theorem Phase.Buried.mono {rest : List Event} (h : phase.Buried p past) :
    phase.Buried p (past ++ rest) := by
  induction phase with
  | deadLettered ran =>
    obtain ⟨infrastructure, kept, copy, hi, isCopy, hmem⟩ := h
    exact ⟨infrastructure, kept, copy, hi, isCopy, List.mem_append_left _ hmem⟩
  | closed before ih => exact ih h
  | _ => trivial

theorem Advance.buried (h : Advance p phase e next) (buried : phase.Buried p past) :
    next.Buried p (past ++ [e]) := by
  have here : e ∈ past ++ [e] := List.mem_append_right _ (List.mem_singleton_self e)
  cases h with
  | auxiliary | notPublished => exact buried.mono
  | refused hi isCopy => exact ⟨_, _, _, hi, isCopy, here⟩
  | deadLettered hi _ _ isCopy => exact ⟨_, _, _, hi, isCopy, here⟩
  | acked => exact Phase.Buried.mono buried
  | _ => trivial

theorem Reaches.buried (h : Reaches p past phase) : phase.Buried p past := by
  induction h with
  | start => trivial
  | snoc _ advance ih => exact advance.buried ih

/-- Whatever is acked has been disposed of before. -/
theorem Reaches.disposed_of_ack (h : Reaches p past phase) {pre post : List Event}
    {answer : Except Exc Unit} (split : past = pre ++ ⟨.ack, answer⟩ :: post) : Disposed p pre := by
  induction h generalizing post with
  | start => simp at split
  | snoc reaches advance ih =>
    obtain rfl | ⟨init, last, rfl⟩ := List.eq_nil_or_concat post
    · obtain ⟨rfl, he⟩ := List.append_inj' split rfl
      obtain rfl := List.singleton_injective he
      cases advance with
      | auxiliary aux => simp [Op.auxiliary] at aux
      | acked ackable => exact reaches.evidence.disposed ackable
    · rw [List.concat_eq_append, ← List.cons_append, ← List.append_assoc] at split
      exact ih (List.append_inj' split rfl).1

end Relayna.Consumer
