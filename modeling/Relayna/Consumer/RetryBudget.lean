import Relayna.Consumer.Settlement

/-!
# The retry budget

A consumer whose handler fails sends a copy of the message to the retry queue, from where the
broker returns it to the source queue, until the attempt in the header has used up the budget
and the copy goes to the dead-letter queue. A chain is a message with the copies that follow
from it, each with the run in which it was handled. Whatever the consumer, the length of a
chain is bounded by the policy and by the attempt its first message carries.
-/
namespace Relayna.Consumer

open Python Contracts Await

/-- A consumer with a retry policy and its queues. Between a publish and the delivery some
headers are rewritten, those of the trace propagator and of the broker. -/
structure Route where
  consumer : AnyConsumer
  policy : RetryPolicy
  sourceQueueName : String
  infrastructure : RetryInfrastructure
  rewritten : String → Prop
  retryPolicy_eq : consumer.retryPolicy = some policy
  wired : consumer.Wired (some infrastructure)
  retry_ne_deadLetter : infrastructure.retryQueueName ≠ infrastructure.deadLetterQueueName
  retry_ne_source : infrastructure.retryQueueName ≠ sourceQueueName
  attempt_not_rewritten : ¬rewritten "x-relayna-retry-attempt"

/-- A delivered message with the run in which it was handled. -/
structure Handled where
  message : Message
  events : List Event
  result : Except Exc Unit

/-- The attempt a message is delivered with: 0 if its header is absent or cannot be read. -/
def Handled.attempt (d : Handled) : Int :=
  (retryAttemptFromHeaders d.message.headers).toOption.getD 0

/-- All operations succeeded and the handler failed. -/
def Handled.Failed (d : Handled) : Prop :=
  (∃ e ∈ d.events, handlerFailed e = true) ∧ ∀ e ∈ d.events, healthy e = true

namespace Route

variable (r : Route)

def maxRetries : Int := r.policy.maxRetries

def Handles (d : Handled) : Prop :=
  Run (r.consumer.handle d.message r.sourceQueueName (some r.infrastructure)) d.events d.result

/-- The run has left a copy in the retry queue, and the copy is delivered. -/
def Hop (d next : Handled) : Prop :=
  ∃ copy, ⟨.publishRaw r.infrastructure.retryQueueName copy, .ok ()⟩ ∈ d.events ∧
    next.message.body = copy.body ∧
    ∀ key, ¬r.rewritten key → next.message.headers key = copy.headers key

structure Chain (deliveries : List Handled) : Prop where
  handles : ∀ d ∈ deliveries, r.Handles d
  hops : deliveries.IsChain r.Hop

/-- What a hop carries over. -/
structure Carries (d next : Handled) : Prop where
  attempt : next.message.headers "x-relayna-retry-attempt" = some (.int (d.attempt + 1))
  body : next.message.body = d.message.body
  headers : ∀ key ∉ retryHeaderNames, ¬r.rewritten key →
    next.message.headers key = r.consumer.carriedHeaders d.message.headers key

/-- What is known of a delivery on the route. -/
structure Describes (d : Handled) (p : Plan) : Prop where
  message : p.message = d.message
  kept : p.kept = r.consumer.carriedHeaders d.message.headers
  attempt : p.attempt = d.attempt
  nonneg : 0 ≤ d.attempt
  infrastructure : p.retryInfrastructure = some r.infrastructure
  maxRetries : p.maxRetries = some r.maxRetries
  separate : p.Separate

variable {r} {d next : Handled}

theorem describes_plan {metadata : MessageMetadata}
    (hm : extractMessageMetadata d.message = .ok metadata) :
    r.Describes d (r.consumer.plan
      ⟨d.message, metadata, r.sourceQueueName, some r.infrastructure⟩) := by
  obtain ⟨headers, attempt⟩ := extractMessageMetadata_ok hm
  have read : metadata.retryAttempt = d.attempt := by
    simp [Handled.attempt, attempt, Except.toOption]
  constructor
  · simp
  · rw [AnyConsumer.plan_kept, headers]
  · simpa [Plan.attempt] using read
  · exact read ▸ retryAttemptFromHeaders_nonneg attempt
  · simp
  · simp [r.retryPolicy_eq, Route.maxRetries]
  · rintro infrastructure hi
    simp only [AnyConsumer.plan_toDelivery, Option.some.injEq] at hi ⊢
    subst hi
    exact ⟨r.retry_ne_deadLetter, r.retry_ne_source⟩

/-- A run closes the delivery, or it breaks, or it has not come to the handler. -/
theorem Handles.outcome (handles : r.Handles d) :
    d.events = [] ∨ ∃ p phase, r.Describes d p ∧ Reaches p d.events phase ∧
      ((∃ before, phase = .closed before) ∨ Unhealthy d.events ∨ phase.faulted = false) := by
  obtain ⟨_, _, none, _⟩ | ⟨metadata, hm, ending⟩ := AnyConsumer.handle_run handles
  · exact Or.inl none
  have plan := describes_plan (r := r) hm
  cases hr : d.result with
  | ok _ =>
    rw [hr] at ending
    obtain ⟨⟨before, reaches⟩, -⟩ := ending
    exact Or.inr ⟨_, _, plan, reaches, Or.inl ⟨before, rfl⟩⟩
  | error exc =>
    rw [hr] at ending
    obtain ⟨⟨phase, reaches⟩, broken⟩ | ⟨⟨published, reaches⟩, -⟩ := ending
    · exact Or.inr ⟨_, phase, plan, reaches, Or.inr (Or.inl (broken r.wired))⟩
    · exact Or.inr ⟨_, _, plan, reaches, Or.inr (Or.inr rfl)⟩

/-- One hop: the attempt is one more, and there was one more to be made. -/
theorem Hop.carries (hop : r.Hop d next) (handles : r.Handles d) :
    d.attempt < r.maxRetries ∧ r.Carries d next := by
  obtain ⟨copy, published, body, headers⟩ := hop
  obtain none | ⟨p, phase, plan, reaches, -⟩ := handles.outcome
  · simp [none] at published
  obtain ⟨⟨maxRetries, hm, lt⟩, isCopy⟩ :=
    reaches.isCopy plan.separate plan.infrastructure published
  obtain rfl := Option.some.inj (plan.maxRetries.symm.trans hm)
  rw [plan.attempt] at lt isCopy
  refine ⟨lt, ?_, ?_, fun key retry kept => ?_⟩
  · rw [headers _ r.attempt_not_rewritten, isCopy.attempt_eq]
  · rw [body, isCopy.body, plan.message]
  · rw [headers key kept, isCopy.carried retry, plan.kept]

/-- The next delivery is read with the attempt that was written. -/
theorem Hop.attempt (hop : r.Hop d next) (handles : r.Handles d) :
    next.attempt = d.attempt + 1 := by
  have nonneg : 0 ≤ d.attempt := by
    obtain ⟨copy, published, -⟩ := hop
    obtain none | ⟨p, phase, plan, -⟩ := handles.outcome
    · simp [none] at published
    · exact plan.nonneg
  have written := (hop.carries handles).2.attempt
  have read := retryAttemptFromHeaders_of_int written (by omega)
  simp [Handled.attempt, read, Except.toOption]

theorem Handles.handlerRuns_le (handles : r.Handles d) : d.events.countP (·.op.isHandler) ≤ 1 := by
  obtain none | ⟨p, phase, -, reaches, -⟩ := handles.outcome
  · simp [none]
  · rw [reaches.handlerRuns]
    exact phase.handlerRuns_le

/-- A failed delivery has left one copy: in the retry queue while there are attempts to be made,
else in the dead-letter queue. -/
theorem Handles.of_failed (handles : r.Handles d) (failed : d.Failed) :
    (d.attempt < r.maxRetries ∧
      d.events.countP (publishedTo r.infrastructure.retryQueueName) = 1 ∧
      d.events.countP (publishedTo r.infrastructure.deadLetterQueueName) = 0) ∨
    (r.maxRetries ≤ d.attempt ∧
      d.events.countP (publishedTo r.infrastructure.retryQueueName) = 0 ∧
      d.events.countP (publishedTo r.infrastructure.deadLetterQueueName) = 1 ∧
      ∃ copy, ⟨.publishRaw r.infrastructure.deadLetterQueueName copy, .ok ()⟩ ∈ d.events ∧
        copy.body = d.message.body ∧
        copy.headers "x-relayna-retry-attempt" = some (.int d.attempt)) := by
  obtain ⟨⟨e, he, failure⟩, calm⟩ := failed
  obtain none | ⟨p, phase, plan, reaches, outcome⟩ := handles.outcome
  · simp [none] at he
  have faulted := reaches.faulted he failure
  obtain ⟨before, rfl⟩ | ⟨e', he', bad⟩ | clean := outcome
  · have retryCopies := reaches.retryCopies plan.separate plan.infrastructure
    have deadLetterCopies := reaches.deadLetterCopies plan.separate plan.infrastructure
    obtain ⟨rfl, lt⟩ | ⟨rfl, le⟩ := reaches.closed_of_faulted plan.maxRetries faulted
    · exact Or.inl ⟨plan.attempt ▸ lt, retryCopies, deadLetterCopies⟩
    · refine Or.inr ⟨plan.attempt ▸ le, retryCopies, deadLetterCopies, ?_⟩
      obtain ⟨infrastructure, kept, copy, hi, isCopy, published⟩ := reaches.buried
      obtain rfl := Option.some.inj (plan.infrastructure.symm.trans hi)
      rw [plan.attempt] at isCopy
      exact ⟨copy, published, isCopy.body.trans (by rw [plan.message]), isCopy.attempt_eq⟩
  · simp [calm e' he'] at bad
  · simp [faulted] at clean

namespace Chain

variable {rest : List Handled}

theorem tail (chain : r.Chain (d :: next :: rest)) : r.Chain (next :: rest) where
  handles d' hd := chain.handles d' (List.mem_cons_of_mem _ hd)
  hops := (List.isChain_cons_cons.mp chain.hops).2

theorem head (chain : r.Chain (d :: rest)) : r.Handles d :=
  chain.handles d List.mem_cons_self

theorem hop (chain : r.Chain (d :: next :: rest)) : r.Hop d next :=
  (List.isChain_cons_cons.mp chain.hops).1

/-- Each hop uses up one attempt. -/
theorem length_le (chain : r.Chain (d :: rest)) :
    ((d :: rest).length : Int) ≤ max (r.maxRetries - d.attempt) 0 + 1 := by
  induction rest generalizing d with
  | nil =>
    simp only [List.length_cons, List.length_nil]
    omega
  | cons next rest ih =>
    have shorter := ih chain.tail
    have lt := (chain.hop.carries chain.head).1
    have attempt := chain.hop.attempt chain.head
    simp only [List.length_cons] at shorter ⊢
    omega

theorem handlerRuns_le {deliveries : List Handled} (handles : ∀ d ∈ deliveries, r.Handles d) :
    (deliveries.flatMap (·.events)).countP (·.op.isHandler) ≤ deliveries.length := by
  induction deliveries with
  | nil => simp
  | cons d rest ih =>
    have first := (handles d List.mem_cons_self).handlerRuns_le
    have others := ih fun d hd => handles d (List.mem_cons_of_mem _ hd)
    rw [List.flatMap_cons, List.countP_append, List.length_cons]
    omega

theorem carries (chain : r.Chain (d :: rest)) : (d :: rest).IsChain r.Carries := by
  induction rest generalizing d with
  | nil => exact .singleton _
  | cons next rest ih =>
    exact List.isChain_cons_cons.mpr ⟨(chain.hop.carries chain.head).2, ih chain.tail⟩

/-- A chain of failures that cannot be continued ends with its one dead letter. -/
theorem dead_letter (chain : r.Chain (d :: rest)) (failed : ∀ h ∈ d :: rest, h.Failed)
    (ended : ∀ last ∈ (d :: rest).getLast?, ∀ copy,
      (⟨.publishRaw r.infrastructure.retryQueueName copy, .ok ()⟩ : Event) ∉ last.events) :
    ((d :: rest).flatMap (·.events)).countP
        (publishedTo r.infrastructure.deadLetterQueueName) = 1 ∧
      ∃ last ∈ (d :: rest).getLast?, ∃ copy,
        ⟨.publishRaw r.infrastructure.deadLetterQueueName copy, .ok ()⟩ ∈ last.events ∧
          copy.body = d.message.body ∧
          copy.headers "x-relayna-retry-attempt" =
            some (.int (max d.attempt r.maxRetries)) := by
  induction rest generalizing d with
  | nil =>
    obtain ⟨-, retried, -⟩ | ⟨le, -, once, copy, published, body, attempt⟩ :=
      chain.head.of_failed (failed d List.mem_cons_self)
    · obtain ⟨e, he, sent⟩ := List.countP_pos_iff.mp (retried ▸ Nat.one_pos)
      obtain ⟨copy, rfl⟩ := exists_of_publishedTo sent
      exact (ended d rfl copy he).elim
    · refine ⟨by simpa using once, d, rfl, copy, published, body, ?_⟩
      rw [max_eq_left le]
      exact attempt
  | cons next rest ih =>
    obtain ⟨lt, -, none⟩ | ⟨le, -⟩ := chain.head.of_failed (failed d List.mem_cons_self)
    · have carries := (chain.hop.carries chain.head).2
      obtain ⟨once, last, hlast, copy, published, body, attempt⟩ := ih chain.tail
        (fun h hh => failed h (List.mem_cons_of_mem _ hh)) (by simpa using ended)
      refine ⟨?_, last, by simpa using hlast, copy, published, body.trans carries.body, ?_⟩
      · rw [List.flatMap_cons, List.countP_append, none, once]
      · rw [attempt, chain.hop.attempt chain.head]
        have same : max (d.attempt + 1) r.maxRetries = max d.attempt r.maxRetries := by omega
        rw [same]
    · exact (not_lt.mpr le (chain.hop.carries chain.head).1).elim

end Chain

/-- Along every chain the attempt grows by one, the body and the other headers are carried over,
the handler runs within the budget, and a chain of failures ends in one dead letter. -/
theorem retry_budget {first : Handled} {rest : List Handled} (chain : r.Chain (first :: rest)) :
    (first :: rest).IsChain r.Carries ∧
      (((first :: rest).flatMap (·.events)).countP (·.op.isHandler) : Int) ≤
        max (r.maxRetries - first.attempt) 0 + 1 ∧
      ((∀ d ∈ first :: rest, d.Failed) →
        (∀ last ∈ (first :: rest).getLast?, ∀ copy,
          (⟨.publishRaw r.infrastructure.retryQueueName copy, .ok ()⟩ : Event) ∉ last.events) →
        ((first :: rest).flatMap (·.events)).countP
            (publishedTo r.infrastructure.deadLetterQueueName) = 1 ∧
          ∃ last ∈ (first :: rest).getLast?, ∃ copy,
            ⟨.publishRaw r.infrastructure.deadLetterQueueName copy, .ok ()⟩ ∈ last.events ∧
              copy.body = first.message.body ∧
              copy.headers "x-relayna-retry-attempt" =
                some (.int (max first.attempt r.maxRetries))) := by
  refine ⟨chain.carries, ?_, chain.dead_letter⟩
  have runs := Chain.handlerRuns_le chain.handles
  have length := chain.length_le
  omega

/-- The delivery of the message in a world that answers so. -/
def handled (r : Route) (world : (op : Op) → Except Exc op.Reply) (message : Message) : Handled :=
  let path := (r.consumer.handle message r.sourceQueueName (some r.infrastructure)).exec world
  ⟨message, path.1, path.2⟩

theorem handles_handled (world : (op : Op) → Except Exc op.Reply) (message : Message) :
    r.Handles (r.handled world message) :=
  run_exec (I := consumerInterface) world _

end Route

/-- The world in which everything succeeds but the handler. -/
def failing : (op : Op) → Except Exc op.Reply
  | .handler _ => .error (.error "ValueError" "boom")
  | .workflowHandler .. => .error (.error "ValueError" "boom")
  | op => granting op

def statusRoute : Route where
  consumer := statusConsumer 1
  policy := { maxRetries := 1 }
  sourceQueueName := "status"
  infrastructure := statusQueues
  rewritten key := key = "traceparent"
  retryPolicy_eq := rfl
  wired _ := rfl
  retry_ne_deadLetter := by decide
  retry_ne_source := by decide
  attempt_not_rewritten := by decide

/-- What the first delivery of a status event leaves in the retry queue. -/
def statusCopy : Outgoing where
  body := statusBody
  correlationId := none
  headers := retryHeaders (fun _ => none) "status" 1 1 "handler_error" (some "ValueError") []
  contentType := some "application/json"

def statusDeliveries : List Handled :=
  [statusRoute.handled failing (statusMessage statusBody fun _ => none),
    statusRoute.handled failing (statusMessage statusBody statusCopy.headers)]

/-- With one retry, the second failure is the last. -/
theorem Route.retry_budget_status :
    statusRoute.Chain statusDeliveries ∧
      ((statusDeliveries.flatMap (·.events)).countP (·.op.isHandler) : Int) ≤ 2 ∧
      (statusDeliveries.flatMap (·.events)).countP (publishedTo "status.dlq") = 1 := by
  have chain : statusRoute.Chain statusDeliveries := by
    refine ⟨fun d hd => ?_, .cons_cons ⟨statusCopy, ?_, rfl, fun _ _ => rfl⟩ (.singleton _)⟩
    · simp only [statusDeliveries, List.mem_cons, List.not_mem_nil, or_false] at hd
      obtain rfl | rfl := hd <;> exact handles_handled failing _
    · exact .tail _ (.head _)
  obtain ⟨-, runs, deadLetter⟩ := retry_budget chain
  refine ⟨chain, runs, (deadLetter (fun d hd => ?_) fun last hl copy he => ?_).1⟩
  · simp only [List.mem_cons, List.not_mem_nil, or_false] at hd
    obtain rfl | rfl := hd
    · exact ⟨⟨_, .head _, rfl⟩, by decide⟩
    · exact ⟨⟨_, .head _, rfl⟩, by decide⟩
  · obtain rfl := Option.some.inj hl
    have none : ∀ e ∈ (statusRoute.handled failing
        (statusMessage statusBody statusCopy.headers)).events,
        publishedTo "status.retry" e = false := by decide
    exact nomatch none _ he

def batchWorker : TaskConsumer where
  codec := statusCodec
  consumerName := "worker"
  retryPolicy := some {}
  retryStatuses := {}
  aliasConfig := none
  observationSink := false
  dlqStore := false
  metrics := false
  failureAction := .reject
  lifecycleStatuses := {}
  leasing := none
  batchPublishConcurrency := 1
  routedTopology := false
  one_le_batchPublishConcurrency := le_rfl

def batchRoute : Route where
  consumer := .task batchWorker
  policy := {}
  sourceQueueName := "status"
  infrastructure := statusQueues
  rewritten _ := False
  retryPolicy_eq := rfl
  wired _ := rfl
  retry_ne_deadLetter := by decide
  retry_ne_source := by decide
  attempt_not_rewritten := id

def paddedHeaders : Dict := Dict.set (fun _ => none) "batch_id" (.str " b ")

/-- The copy of a batch item, whose batch id has been stripped. -/
def strippedCopy : Outgoing where
  body := statusBody
  correlationId := none
  headers := retryHeaders paddedHeaders "status" 1 3 "handler_error" (some "ValueError")
    [("batch_id", .str "b")]
  contentType := some "application/json"

/-- The headers of a batch item are no retry headers, and they are not kept as they are. -/
theorem Route.batch_id_not_kept :
    ¬∀ (r : Route) (d next : Handled), r.Chain [d, next] →
      ∀ key ∉ retryHeaderNames, ¬r.rewritten key →
        next.message.headers key = d.message.headers key := by
  intro kept
  have chain : batchRoute.Chain
      [batchRoute.handled failing (statusMessage statusBody paddedHeaders),
        batchRoute.handled failing (statusMessage statusBody strippedCopy.headers)] := by
    refine ⟨fun d hd => ?_, .cons_cons ⟨strippedCopy, ?_, rfl, fun _ _ => rfl⟩ (.singleton _)⟩
    · simp only [List.mem_cons, List.not_mem_nil, or_false] at hd
      obtain rfl | rfl := hd <;> exact handles_handled failing _
    · exact .tail _ (.head _)
  have same := kept _ _ _ chain "batch_id" (by decide) id
  exact nomatch Value.str.inj (Option.some.inj same)

end Relayna.Consumer
