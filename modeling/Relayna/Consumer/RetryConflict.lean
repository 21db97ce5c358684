import Relayna.Consumer.DedupState
import Relayna.Foundation.Transition

/-!
# Retries and the dedup key

A stage with its source queue, its retry queue, the Redis keys and any number of handlers that
run side by side. Each handler is the program of its consumer, interleaved command by command
with the others; the broker returns retry copies, takes back unsettled messages and delivers them
in any order.

An original message and all its copies share an origin. A handler whose key is refused is to find
a handler of another origin in the way. It is not always so: the retry copy is published, and a
message without a lease requeued, before the key is released, and the copy may be delivered in
between. The refusal comes from another origin in every run in which no copy is delivered before
the handlers of the same origin are done with their key, releases take effect and no handler
leaves while it holds a key.
-/
namespace Relayna.Consumer

open Python Contracts Await Transition

/-! ## The key is asked for once -/

def StoreOp.asks : StoreOp → Bool
  | .redis (.setNx ..) => true
  | _ => false

def Op.asks : Op → Bool
  | .acquireDedup _ => true
  | _ => false

def timesAsked (es : List StoreEvent) : Nat := es.countP (·.op.asks)

section Asking

variable {store : RedisWorkflowContractStore} {c : WorkflowConsumer} {message : WorkflowEnvelope}
  {es : List StoreEvent}

theorem timesAsked_serve {op : Op} {answer : Except Exc op.Reply}
    (run : Run (store.serve op) es (.ok answer)) :
    timesAsked es = if op.asks then 1 else 0 := by
  by_cases h : op.onContract = true
  · cases op with
    | acquireDedup | releaseDedup | clearInflight =>
      obtain rfl := run_serve_command run
      rfl
    | markInflight =>
      obtain ⟨exc, -, rfl⟩ | ⟨done, rfl, ⟨-, expired⟩ | ⟨exc, key, seconds, -, rfl⟩⟩ :=
        run_serve_markInflight run
      · rfl
      · refine List.countP_eq_zero.mpr fun e he => ?_
        obtain rfl | he := List.mem_cons.mp he
        · simp [StoreOp.asks]
        · obtain ⟨key, seconds, rfl⟩ := expired e he
          simp [StoreOp.asks]
      · rfl
    | _ => simp [Op.onContract] at h
  · rw [serve_other (by simpa using h)] at run
    obtain rfl := run_serve_command run
    cases op with
    | acquireDedup => simp [Op.onContract] at h
    | _ => rfl

theorem timesAsked_segments {t : List Event} (segments : Segments store.serve t es) :
    timesAsked es = t.countP (·.op.asks) := by
  induction segments with
  | nil => rfl
  | snoc _ run ih =>
    have last := timesAsked_serve run
    simp only [timesAsked, List.countP_append, List.countP_singleton] at *
    rw [ih, last]

theorem asks_of_touchy (op : Op) (neutral : op.touchy = false) : op.asks = false := by
  cases op <;> first | rfl | simp [Op.touchy, Op.onContract] at neutral

/-- The key has been asked for so often at most. -/
def AtMost (n : Nat) (t : List Event) : Prop := t.countP (·.op.asks) ≤ n

theorem AtMost.snoc {n : Nat} {t : List Event} (h : AtMost n t) {e : Event}
    (other : e.op.asks = false) : AtMost n (t ++ [e]) := by
  simpa [AtMost, List.countP_append, other] using h

theorem AtMost.keep {α : Type} {x : Proc α} (n : Nat) (h : Avoids Op.asks x) :
    Triple (AtMost n) x (fun _ => AtMost n) (fun _ => AtMost n) :=
  h _ fun _ _ ht other => ht.snoc other

theorem processStage_asks {d : Delivery} {context : WorkflowContext} (acquired : Bool) :
    Avoids Op.asks (c.processStage d message context acquired) := by
  refine processStage_avoids asks_of_touchy (fun _ => rfl) rfl ?_
  unfold WorkflowConsumer.cleanupDedupState
  split
  · exact (swallow_avoids (.perform rfl)).bind fun _ => swallow_avoids (.perform rfl)
  · exact .pure _

theorem processDeduplicated_asks {d : Delivery} {context : WorkflowContext} :
    Triple (AtMost 0) (c.processDeduplicated d message context) (fun _ => AtMost 1)
      (fun _ => AtMost 1) := by
  have more : ∀ t, AtMost 0 t → AtMost 1 t := fun t h => Nat.le_succ_of_le h
  unfold WorkflowConsumer.processDeduplicated
  split
  · exact (AtMost.keep 0 (processStage_asks false)).conseq (fun _ => id) (fun _ => more)
      fun _ => more
  · split
    · exact .raise more
    · have asked : ∀ t (e : Event), AtMost 0 t → AtMost 1 (t ++ [e]) := by
        intro t e h
        have bound : [e].countP (·.op.asks) ≤ 1 := List.countP_le_length
        simp only [AtMost, List.countP_append] at *
        omega
      refine .bind (.perform (fun t _ h => asked t _ h) fun t _ h => asked t _ h) fun granted => ?_
      refine AtMost.keep 1 ?_
      split
      · refine .bind (.tryCatch (.perform rfl) fun exc => ?_) fun _ => processStage_asks true
        cases exc with
        | cancelled => exact .raise _
        | _ => exact (Avoids.perform rfl).bind fun _ => .raise _
      · exact (refuse_neutral c d _ _ _).mono asks_of_touchy

/-- In whichever way a message is handled, its dedup key is asked for once at most. -/
theorem handle_asks_once {message : Message} {sourceQueueName : String}
    {infrastructure : Option RetryInfrastructure} {res : Except Exc (Except Exc Unit)}
    (run : Run (((AnyConsumer.workflow c).handle message sourceQueueName infrastructure).interpret
      store.serve) es res) : timesAsked es ≤ 1 := by
  obtain ⟨t, r, rfl, original, segments⟩ :=
    run_of_interpret (fun op es e => serve_total op e) run
  have more : ∀ t, AtMost 0 t → AtMost 1 t := fun t h => Nat.le_succ_of_le h
  have judged : Triple (AtMost 0)
      ((AnyConsumer.workflow c).handle message sourceQueueName infrastructure)
      (fun _ => AtMost 1) (fun _ => AtMost 1) := by
    unfold AnyConsumer.handle WorkflowConsumer.handleMessage
    refine .bind (.bind (.ofExcept (fun _ _ _ => id) fun _ t _ => more t) fun metadata =>
      handleMessageImpl_triple more (fun t e h neutral => h.snoc (asks_of_touchy e.op neutral))
        fun _ _ => processDeduplicated_asks) fun acked => AtMost.keep 1 ?_
    split
    · exact .perform rfl
    · exact .pure _
  have ending := judged [] t r (Nat.le_refl 0) original
  rw [timesAsked_segments segments]
  cases r with
  | ok a => exact ending
  | error exc => exact ending

end Asking

/-! ## The stage -/

/-- A message or a retry copy of it, with the number of the original. -/
structure Parcel where
  origin : Nat
  message : Message

def Parcel.redelivered (p : Parcel) : Parcel :=
  { p with message := { p.message with redelivered := true } }

def Parcel.delivered (p : Parcel) (tag : Int) (fresh : Fresh) : Parcel :=
  { p with message := { p.message with deliveryTag := some tag, fresh } }

/-- What the broker makes of a retry copy. The trace propagator and the broker add headers. -/
def Outgoing.returned (copy : Outgoing) (added : Dict) : Message where
  body := copy.body
  headers key := (added key).or (copy.headers key)
  correlationId := copy.correlationId
  deliveryTag := none
  redelivered := false
  contentType := copy.contentType
  fresh := ⟨"", 0⟩

/-- A stage with its queues and the store of its dedup keys. -/
structure Fleet where
  stage : WorkflowStage
  store : RedisWorkflowContractStore
  sourceQueueName : String
  infrastructure : RetryInfrastructure

namespace Fleet

variable (f : Fleet)

abbrev Worker := { c : WorkflowConsumer // c.stage = f.stage }

/-- What the loop of the worker runs for a message. The retry infrastructure is declared where
there is a retry policy. -/
def handler (worker : f.Worker) (message : Message) : StoreProc (Except Exc Unit) :=
  ((AnyConsumer.workflow worker).handle message f.sourceQueueName
    (if worker.1.effectiveRetryPolicy.isSome then some f.infrastructure else none)).interpret
      f.store.serve

end Fleet

/-- A message that is being handled: what has been awaited for it and what is left to do.
`settled` says that the broker does not wait for an ack any more. -/
structure Handling (f : Fleet) where
  parcel : Parcel
  worker : f.Worker
  past : List StoreEvent
  program : StoreProc (Except Exc Unit)
  settled : Bool
  reached : Residual (f.handler worker parcel.message) past program

variable {f : Fleet}

namespace Handling

def start (worker : f.Worker) (parcel : Parcel) : Handling f :=
  ⟨parcel, worker, [], f.handler worker parcel.message, false, .refl _⟩

variable (h : Handling f)

def pending : Option StoreOp :=
  match h.program with
  | .await op _ => some op
  | _ => none

def answered {op : StoreOp} {k : Except Exc op.Reply → StoreProc (Except Exc Unit)}
    (awaits : h.program = .await op k) (answer : Except Exc op.Reply) : Handling f :=
  { h with
    past := h.past ++ [⟨op, answer⟩]
    program := k answer
    reached := .snoc answer (awaits ▸ h.reached) }

/-- The dedup keys that it has acquired and not released. -/
def holds : List String := (outstanding h.past).keys

/-- It has asked for its key, and it does not have it, or not any more. -/
def Done : Prop := 0 < timesAsked h.past ∧ h.holds = []

instance : Decidable h.Done := inferInstanceAs (Decidable (_ ∧ _))

end Handling

/-- `retry` holds the copies with the origin of the message they were made from, and `origins`
is the number of originals so far. -/
structure FleetState (f : Fleet) where
  source : List Parcel
  retry : List (Nat × Outgoing)
  handlings : List (Handling f)
  keys : List String
  origins : Nat

def FleetState.empty : FleetState f := ⟨[], [], [], [], 0⟩

/-- `act` lets a handler await its next operation. Where `world` raises, the operation has taken
effect nevertheless if the answer was only `lost`. A handler may `leave` at any time, at its end or
with its process; the broker may take back an unsettled message while it is being handled. -/
inductive FleetStep (f : Fleet) where
  | publish (message : Message)
  | deliver (n : Nat) (worker : f.Worker) (tag : Int) (fresh : Fresh)
  | act (i : Nat) (world : (op : StoreOp) → Except Exc op.Reply) (lost : Bool)
  | leave (i : Nat)
  | takeBack (i : Nat)
  | returnCopy (n : Nat) (added : Dict)
  | expire (key : String)

namespace StoreOp

def releases : StoreOp → Bool
  | .redis (.delete _) => true
  | _ => false

def settles : StoreOp → Bool
  | .other op => op.settles
  | _ => false

def requeues : StoreOp → Bool
  | .other (.reject true) => true
  | _ => false

def keysAfter (keys : List String) : StoreOp → List String
  | .redis (.setNx key _) => keys.insert key
  | .redis (.delete key) => keys.filter (· ≠ key)
  | _ => keys

/-- The copy that the operation puts into the retry queue. -/
def retryCopy (queueName : String) : StoreOp → Option Outgoing
  | .other (.publishRaw name copy) => if name = queueName then some copy else none
  | _ => none

end StoreOp

/-- `SET NX` succeeds exactly if the key is not there. -/
def reply (keys : List String) (world : (op : StoreOp) → Except Exc op.Reply) :
    (op : StoreOp) → Except Exc op.Reply
  | .redis (.setNx key ex) =>
    (world (.redis (.setNx key ex))).map fun _ => decide (key ∉ keys)
  | op => world op

namespace FleetState

variable (s : FleetState f)

def act (i : Nat) (h : Handling f) (world : (op : StoreOp) → Except Exc op.Reply) (lost : Bool) :
    Option (FleetState f) :=
  match awaits : h.program with
  | .await op _ =>
    let answer := reply s.keys world op
    let moved := h.answered awaits answer
    if answer.isOk || lost then
      some { s with
        source := if op.requeues && !h.settled then s.source ++ [h.parcel.redelivered] else s.source
        retry := s.retry ++ ((op.retryCopy f.infrastructure.retryQueueName).map
          fun copy => (h.parcel.origin, copy)).toList
        handlings := s.handlings.set i { moved with settled := h.settled || op.settles }
        keys := op.keysAfter s.keys }
    else some { s with handlings := s.handlings.set i moved }
  | _ => none

def next : FleetStep f → Option (FleetState f)
  | .publish message =>
    some { s with source := s.source ++ [⟨s.origins, message⟩], origins := s.origins + 1 }
  | .deliver n worker tag fresh =>
    s.source[n]?.map fun parcel =>
      { s with
        source := s.source.eraseIdx n
        handlings := s.handlings ++ [.start worker (parcel.delivered tag fresh)] }
  | .act i world lost => s.handlings[i]?.bind fun h => s.act i h world lost
  | .leave i =>
    s.handlings[i]?.map fun h =>
      { s with
        source := if h.settled then s.source else s.source ++ [h.parcel.redelivered]
        handlings := s.handlings.eraseIdx i }
  | .takeBack i =>
    s.handlings[i]?.bind fun h =>
      if h.settled then none
      else some { s with
        source := s.source ++ [h.parcel.redelivered]
        handlings := s.handlings.set i { h with settled := true } }
  | .returnCopy n added =>
    s.retry[n]?.map fun copy =>
      { s with
        source := s.source ++ [⟨copy.1, copy.2.returned added⟩]
        retry := s.retry.eraseIdx n }
  | .expire key => some { s with keys := s.keys.filter (· ≠ key) }

/-- The key that a handler is refused in its next step. From here on its message is dead-lettered,
or rejected without a retry policy, for a dedup conflict. -/
def refused (h : Handling f) (world : (op : StoreOp) → Except Exc op.Reply) : Option String :=
  match h.pending with
  | some (.redis (.setNx key ex)) =>
    match reply s.keys world (.redis (.setNx key ex)) with
    | .ok false => some key
    | _ => none
  | _ => none

end FleetState

def Fleet.machine (f : Fleet) : Machine (FleetState f) (FleetStep f) := ⟨FleetState.next⟩

/-- Whoever is refused its key, a handler of another original message holds it. -/
def RefusedByOther (s : FleetState f) : FleetStep f → Prop
  | .act i world _ =>
    ∀ h ∈ s.handlings[i]?, ∀ key ∈ s.refused h world, ∃ other ∈ s.handlings,
      other.parcel.origin ≠ h.parcel.origin ∧ key ∈ other.holds
  | _ => True

/-- A command on the dedup key takes effect exactly if its handler thinks so. A handler that has
issued the release thinks so whatever the answer. -/
def heard (lost : Bool) : (op : StoreOp) → Except Exc op.Reply → Bool
  | .redis (.setNx ..), answer => answer.isOk || !lost
  | .redis (.delete _), answer => answer.isOk || lost
  | _, _ => true

/-- A message is delivered when the handlers of its origin are done with their key, a command on
the key is heard, and whoever leaves holds nothing. -/
def Orderly (s : FleetState f) : FleetStep f → Prop
  | .deliver n .. =>
    ∀ parcel ∈ s.source[n]?, ∀ h ∈ s.handlings, h.parcel.origin = parcel.origin → h.Done
  | .act i world lost =>
    ∀ h ∈ s.handlings[i]?, ∀ op ∈ h.pending, heard lost op (reply s.keys world op) = true
  | .leave i => ∀ h ∈ s.handlings[i]?, h.holds = []
  | _ => True

instance (s : FleetState f) : (l : FleetStep f) → Decidable (RefusedByOther s l)
  | .act i world _ => inferInstanceAs (Decidable (∀ h ∈ s.handlings[i]?,
      ∀ key ∈ s.refused h world, ∃ other ∈ s.handlings,
        other.parcel.origin ≠ h.parcel.origin ∧ key ∈ other.holds))
  | .publish _ | .deliver .. | .leave _ | .takeBack _ | .returnCopy .. | .expire _ =>
    .isTrue trivial

instance (s : FleetState f) : (l : FleetStep f) → Decidable (Orderly s l)
  | .deliver n .. => inferInstanceAs (Decidable (∀ parcel ∈ s.source[n]?, ∀ h ∈ s.handlings,
      h.parcel.origin = parcel.origin → h.Done))
  | .act i world lost => inferInstanceAs (Decidable (∀ h ∈ s.handlings[i]?, ∀ op ∈ h.pending,
      heard lost op (reply s.keys world op) = true))
  | .leave i => inferInstanceAs (Decidable (∀ h ∈ s.handlings[i]?, h.holds = []))
  | .publish _ | .takeBack _ | .returnCopy .. | .expire _ => .isTrue trivial

/-! ## Handlers and their keys -/

section Handlings

variable {h : Handling f} {op : StoreOp} {k : Except Exc op.Reply → StoreProc (Except Exc Unit)}

theorem Handling.once (h : Handling f) : timesAsked h.past ≤ 1 := by
  have : Nonempty storeInterface.Exc := ⟨.cancelled⟩
  obtain ⟨rest, res, run⟩ := h.reached.exists_run
  have once := handle_asks_once run
  simp only [timesAsked, List.countP_append] at *
  omega

variable {awaits : h.program = .await op k} {answer : Except Exc op.Reply}

theorem timesAsked_answered :
    timesAsked (h.answered awaits answer).past = timesAsked h.past + if op.asks then 1 else 0 := by
  simp [Handling.answered, timesAsked, List.countP_append, List.countP_singleton]

theorem holds_answered :
    (h.answered awaits answer).holds = ((outstanding h.past).after ⟨op, answer⟩).keys := by
  simp [Handling.holds, Handling.answered, outstanding, List.foldl_append]

theorem keys_after (o : Outstanding) (quiet : op.asks = false) (kept : op.releases = false) :
    (o.after ⟨op, answer⟩).keys = o.keys := by
  cases op with
  | other op => exact congrArg Outstanding.keys (after_other o op answer)
  | redis command =>
    cases command with
    | setNx => simp [StoreOp.asks] at quiet
    | delete => simp [StoreOp.releases] at kept
    | hset | expire | hdel => cases answer <;> rfl

theorem keys_after_delete (o : Outstanding) (key : String)
    (answer : Except Exc (StoreOp.Reply (.redis (.delete key)))) :
    (o.after ⟨.redis (.delete key), answer⟩).keys = o.keys.filter (· ≠ key) := by
  cases answer <;> rfl

/-- Only by asking does a handler come to hold a key. -/
theorem keys_after_of_nil {o : Outstanding} (quiet : op.asks = false) (none : o.keys = []) :
    (o.after ⟨op, answer⟩).keys = [] := by
  by_cases release : op.releases = true
  · cases op with
    | other op => simp [StoreOp.releases] at release
    | redis command =>
      cases command with
      | delete key => rw [keys_after_delete, none, List.filter_nil]
      | setNx | hset | expire | hdel => simp [StoreOp.releases] at release
  · rw [keys_after o quiet (by simpa using release), none]

theorem holds_eq_nil {es : List StoreEvent} (none : timesAsked es = 0) :
    (outstanding es).keys = [] := by
  induction es using List.reverseRecOn with
  | nil => rfl
  | append_singleton es e ih =>
    simp only [timesAsked, List.countP_append, List.countP_singleton, Nat.add_eq_zero_iff] at none
    obtain ⟨before, last⟩ := none
    rw [outstanding, List.foldl_append, List.foldl_cons, List.foldl_nil]
    exact keys_after_of_nil (by simpa using last) (ih before)

/-- A handler that is about to ask has not asked before. -/
theorem not_asked_of_asks (awaits : h.program = .await op k) (asks : op.asks = true) :
    timesAsked h.past = 0 := by
  have once := (h.answered awaits (.error .cancelled)).once
  rw [timesAsked_answered, if_pos asks] at once
  omega

theorem done_answered (awaits : h.program = .await op k) (answer : Except Exc op.Reply)
    (done : h.Done) : (h.answered awaits answer).Done := by
  obtain ⟨asked, none⟩ := done
  have quiet : op.asks = false := by
    by_contra asks
    have := not_asked_of_asks awaits (by simpa using asks)
    omega
  refine ⟨by rw [timesAsked_answered]; omega, ?_⟩
  rw [holds_answered]
  exact keys_after_of_nil quiet none

end Handlings

/-! ## Orderly runs -/

/-- Every key that is set is held by a handler, and of two handlers of one origin one is done. -/
structure Accounting (s : FleetState f) : Prop where
  held : ∀ key ∈ s.keys, ∃ h ∈ s.handlings, key ∈ h.holds
  apart : s.handlings.Pairwise fun a b => a.parcel.origin = b.parcel.origin → a.Done ∨ b.Done

variable {s t : FleetState f} {h : Handling f} {i : Nat}
  {world : (op : StoreOp) → Except Exc op.Reply} {lost : Bool}

theorem act_cases (step : s.act i h world lost = some t) :
    ∃ op k, ∃ awaits : h.program = .await op k, ∃ moved : Handling f,
      t.handlings = s.handlings.set i moved ∧ moved.parcel = h.parcel ∧
      moved.past = (h.answered awaits (reply s.keys world op)).past ∧
      t.keys = if (reply s.keys world op).isOk || lost then op.keysAfter s.keys else s.keys := by
  unfold FleetState.act at step
  split at step
  · rename_i op k awaits
    refine ⟨op, k, awaits, ?_⟩
    dsimp only at step
    by_cases effective : ((reply s.keys world op).isOk || lost) = true
    · rw [if_pos effective] at step
      obtain rfl := Option.some.inj step
      exact ⟨_, rfl, rfl, rfl, by rw [if_pos effective]⟩
    · rw [if_neg effective] at step
      obtain rfl := Option.some.inj step
      exact ⟨_, rfl, rfl, rfl, by rw [if_neg effective]⟩
  · cases step

theorem refused_cases {key : String} (refused : s.refused h world = some key) :
    key ∈ s.keys ∧ ∃ ex k, h.program = .await (.redis (.setNx key ex)) k := by
  unfold FleetState.refused Handling.pending at refused
  split at refused
  · rename_i key' ex pending
    split at pending
    · rename_i op k awaits
      obtain rfl := Option.some.inj pending
      simp only [reply] at refused
      split at refused
      · rename_i denied
        obtain rfl := Option.some.inj refused
        cases granted : world (.redis (.setNx key' ex)) with
        | ok a =>
          rw [granted] at denied
          have present : ¬key' ∉ s.keys := of_decide_eq_false (Except.ok.inj denied)
          exact ⟨not_not.mp present, ex, k, awaits⟩
        | error exc =>
          rw [granted] at denied
          cases denied
      · cases refused
    · cases pending
  · cases refused

namespace Accounting

/-- A handler that has still to ask: the others of its origin are done. -/
theorem done_of_not_asked (inv : Accounting s) {before after : List (Handling f)}
    (split : s.handlings = before ++ h :: after) (unasked : timesAsked h.past = 0)
    {other : Handling f} (among : other ∈ before ∨ other ∈ after)
    (same : other.parcel.origin = h.parcel.origin) : other.Done := by
  have undone : ¬h.Done := by
    rintro ⟨asked, -⟩
    omega
  have apart := inv.apart
  rw [split, List.pairwise_append, List.pairwise_cons] at apart
  obtain ⟨-, ⟨right, -⟩, left⟩ := apart
  obtain hb | ha := among
  · exact (left other hb h List.mem_cons_self same).resolve_right undone
  · exact (right other ha same.symm).resolve_left undone

/-- A refused handler finds another origin in its way. -/
theorem refusedByOther (inv : Accounting s) (l : FleetStep f) : RefusedByOther s l := by
  cases l with
  | act i world lost =>
    intro h at_i key refused
    obtain ⟨before, after, split, -, -⟩ := exists_split at_i
    obtain ⟨present, ex, k, awaits⟩ := refused_cases refused
    have unasked : timesAsked h.past = 0 := not_asked_of_asks awaits rfl
    obtain ⟨other, mem, holds⟩ := inv.held key present
    refine ⟨other, mem, fun same => ?_, holds⟩
    rw [split, List.mem_append, List.mem_cons] at mem
    have nothing : other.holds = [] := by
      obtain hb | rfl | ha := mem
      · exact (inv.done_of_not_asked split unasked (Or.inl hb) same).2
      · exact holds_eq_nil unasked
      · exact (inv.done_of_not_asked split unasked (Or.inr ha) same).2
    rw [nothing] at holds
    cases holds
  | _ => trivial

theorem moved (inv : Accounting s) {moved : Handling f} (at_i : s.handlings[i]? = some h)
    (handlings : t.handlings = s.handlings.set i moved) (parcel : moved.parcel = h.parcel)
    (done : h.Done → moved.Done)
    (held : ∀ key ∈ t.keys,
      key ∈ moved.holds ∨ key ∈ s.keys ∧ (key ∈ h.holds → key ∈ moved.holds)) :
    Accounting t := by
  obtain ⟨before, after, split, -, set⟩ := exists_split at_i
  rw [set moved] at handlings
  have here : moved ∈ t.handlings := by simp [handlings]
  constructor
  · intro key hkey
    obtain new | ⟨old, kept⟩ := held key hkey
    · exact ⟨moved, here, new⟩
    · obtain ⟨holder, mem, holds⟩ := inv.held key old
      rw [split, List.mem_append, List.mem_cons] at mem
      obtain hb | rfl | ha := mem
      · exact ⟨holder, by simp [handlings, hb], holds⟩
      · exact ⟨moved, here, kept holds⟩
      · exact ⟨holder, by simp [handlings, ha], holds⟩
  · have apart := inv.apart
    rw [split] at apart
    rw [handlings]
    simp only [List.pairwise_append, List.pairwise_cons, List.mem_cons, parcel] at apart ⊢
    obtain ⟨early, ⟨right, late⟩, left⟩ := apart
    refine ⟨early, ⟨fun b hb same => (right b hb same).imp_left done, late⟩, ?_⟩
    intro a ha b hb same
    obtain rfl | hb := hb
    · rw [parcel] at same
      exact (left a ha h (Or.inl rfl) same).imp_right done
    · exact left a ha b (Or.inr hb) same

/-- What a command makes of the keys, its handler answers for. -/
theorem held_answered {op : StoreOp} {k : Except Exc op.Reply → StoreProc (Except Exc Unit)}
    (awaits : h.program = .await op k) (keys : List String)
    (sound : heard lost op (reply keys world op) = true) {key : String}
    (set : key ∈ if (reply keys world op).isOk || lost then op.keysAfter keys else keys) :
    key ∈ (h.answered awaits (reply keys world op)).holds ∨
      key ∈ keys ∧ (key ∈ h.holds → key ∈ (h.answered awaits (reply keys world op)).holds) := by
  rw [holds_answered]
  have quiet (asks : op.asks = false) (releases : op.releases = false)
      (same : op.keysAfter keys = keys) : key ∈ keys ∧ (key ∈ h.holds →
        key ∈ ((outstanding h.past).after ⟨op, reply keys world op⟩).keys) := by
    rw [same, ite_self] at set
    rw [keys_after _ asks releases]
    exact ⟨set, id⟩
  cases op with
  | other op => exact Or.inr (quiet rfl rfl rfl)
  | redis command =>
    cases command with
    | hset | expire | hdel => exact Or.inr (quiet rfl rfl rfl)
    | delete key' =>
      have effective : ((reply keys world (.redis (.delete key'))).isOk || lost) = true := sound
      rw [if_pos effective] at set
      obtain ⟨old, ne⟩ := List.mem_filter.mp set
      refine Or.inr ⟨old, fun holds => ?_⟩
      rw [keys_after_delete]
      exact List.mem_filter.mpr ⟨holds, ne⟩
    | setNx key' ex =>
      have none : h.holds = [] := holds_eq_nil (not_asked_of_asks awaits rfl)
      cases answered : world (.redis (.setNx key' ex)) with
      | error exc =>
        have raised : reply keys world (.redis (.setNx key' ex)) = .error exc := by
          rw [reply, answered]
          rfl
        have ineffective : lost = false := by
          rw [raised] at sound
          simpa [heard, Except.isOk, Except.toBool] using sound
        rw [raised, ineffective] at set
        exact Or.inr ⟨set, by simp [none]⟩
      | ok a =>
        have granted : reply keys world (.redis (.setNx key' ex)) = .ok (decide (key' ∉ keys)) := by
          rw [reply, answered]
          rfl
        by_cases old : key ∈ keys
        · exact Or.inr ⟨old, by simp [none]⟩
        · rw [granted] at set ⊢
          obtain rfl : key = key' := (List.mem_insert_iff.mp set).resolve_right old
          rw [decide_eq_true old]
          exact Or.inl List.mem_cons_self

theorem act (inv : Accounting s) (at_i : s.handlings[i]? = some h)
    (orderly : Orderly s (.act i world lost)) (step : s.act i h world lost = some t) :
    Accounting t := by
  obtain ⟨op, k, awaits, moved, handlings, parcel, past, keys⟩ := act_cases step
  have same : moved.holds = (h.answered awaits (reply s.keys world op)).holds := by
    rw [Handling.holds, past, Handling.holds]
  have pending : op ∈ h.pending := by simp [Handling.pending, awaits]
  refine inv.moved at_i handlings parcel (fun done => ?_) fun key hkey => ?_
  · have answered := done_answered awaits (reply s.keys world op) done
    rwa [Handling.Done, same, past]
  · rw [keys] at hkey
    rw [same]
    exact held_answered awaits s.keys (orderly h at_i op pending) hkey

theorem deliver (inv : Accounting s) {n : Nat} {parcel : Parcel} {worker : f.Worker} {tag : Int}
    {fresh : Fresh} (at_n : s.source[n]? = some parcel)
    (orderly : Orderly s (.deliver n worker tag fresh)) {source : List Parcel} :
    Accounting { s with
      source, handlings := s.handlings ++ [.start worker (parcel.delivered tag fresh)] } := by
  constructor
  · intro key hkey
    obtain ⟨h, mem, holds⟩ := inv.held key hkey
    exact ⟨h, List.mem_append_left _ mem, holds⟩
  · refine List.pairwise_append.mpr ⟨inv.apart, List.pairwise_singleton _ _, ?_⟩
    intro a ha b hb same
    obtain rfl := List.mem_singleton.mp hb
    exact Or.inl (orderly parcel at_n a ha same)

theorem leave (inv : Accounting s) (at_i : s.handlings[i]? = some h)
    (orderly : Orderly s (.leave i)) {source : List Parcel} :
    Accounting { s with source, handlings := s.handlings.eraseIdx i } := by
  constructor
  · intro key hkey
    obtain ⟨holder, mem, holds⟩ := inv.held key hkey
    obtain ⟨before, after, split, erased, -⟩ := exists_split at_i
    rw [split, List.mem_append, List.mem_cons] at mem
    obtain hb | rfl | ha := mem
    · exact ⟨holder, by simp [erased, hb], holds⟩
    · rw [orderly holder at_i] at holds
      cases holds
    · exact ⟨holder, by simp [erased, ha], holds⟩
  · exact inv.apart.sublist (List.eraseIdx_sublist _ _)

theorem empty : Accounting (.empty : FleetState f) := by
  constructor
  · intro key hkey
    cases hkey
  · exact List.Pairwise.nil

/-- One orderly step. -/
theorem next (inv : Accounting s) {l : FleetStep f} (orderly : Orderly s l)
    (step : s.next l = some t) : Accounting t := by
  cases l with
  | publish message =>
    obtain rfl := Option.some.inj step
    exact ⟨inv.held, inv.apart⟩
  | deliver n worker tag fresh =>
    obtain ⟨parcel, at_n, rfl⟩ := Option.map_eq_some_iff.mp step
    exact inv.deliver at_n orderly
  | act i world lost =>
    obtain ⟨h, at_i, step⟩ := Option.bind_eq_some_iff.mp step
    exact inv.act at_i orderly step
  | leave i =>
    obtain ⟨h, at_i, rfl⟩ := Option.map_eq_some_iff.mp step
    exact inv.leave at_i orderly
  | takeBack i =>
    obtain ⟨h, at_i, step⟩ := Option.bind_eq_some_iff.mp step
    split at step
    · cases step
    · obtain rfl := Option.some.inj step
      exact inv.moved at_i rfl rfl id fun key hkey => Or.inr ⟨hkey, id⟩
  | returnCopy n added =>
    obtain ⟨copy, -, rfl⟩ := Option.map_eq_some_iff.mp step
    exact ⟨inv.held, inv.apart⟩
  | expire key =>
    obtain rfl := Option.some.inj step
    exact ⟨fun key hkey => inv.held key (List.mem_of_mem_filter hkey), inv.apart⟩

end Accounting

/-- In every run whose steps are orderly, a handler is refused its key only while a handler of
another original message holds it. -/
theorem retry_refused_by_other (f : Fleet) {ls : List (FleetStep f)}
    (orderly : f.machine.Along Orderly .empty ls) : f.machine.Along RefusedByOther .empty ls :=
  orderly.of_invariant (I := Accounting) (fun _ _ _ inv ok step => inv.next ok step)
    (fun _ l inv _ => inv.refusedByOther l) Accounting.empty

/-! ## A message, its retry copy and another message with the same key -/

def dedupFleet : Fleet := ⟨dedupWorker.stage, dayStore, "ocr", ⟨"ocr", "ocr.retry", "ocr.dlq"⟩⟩

def retryWorker : dedupFleet.Worker := ⟨{ dedupWorker with leasing := none }, rfl⟩

/-- The handler fails; everything else succeeds. -/
def failingWorld : (op : StoreOp) → Except Exc op.Reply
  | .other (.workflowHandler ..) => .error (.error "ValueError" "no text")
  | op => stageWorld true (.ok true) op

def acts (i n : Nat) : List (FleetStep dedupFleet) := List.replicate n (.act i failingWorld false)

/-- The other message is refused while the first is being handled. The retry copy of the first is
delivered when the key has been released. -/
def orderlyRetry : List (FleetStep dedupFleet) :=
  [.publish (stageDelivery false).message, .publish (stageDelivery false).message,
    .deliver 0 retryWorker 1 ⟨"0", 0⟩] ++ acts 0 4 ++
  [.deliver 0 retryWorker 2 ⟨"1", 0⟩] ++ acts 1 2 ++ acts 0 3 ++
  [.returnCopy 0 fun _ => none, .deliver 0 retryWorker 3 ⟨"2", 0⟩] ++ acts 2 1

def deniedKey : StoreEvent → Bool
  | ⟨.redis (.setNx ..), .ok false⟩ => true
  | _ => false

theorem retry_refused_by_other_orderly :
    (dedupFleet.machine.exec .empty orderlyRetry).map
        (·.handlings.map fun h => (h.parcel.origin, h.past.any deniedKey)) =
          some [(0, false), (1, true), (0, false)] ∧
      dedupFleet.machine.Along RefusedByOther .empty orderlyRetry :=
  ⟨by decide +kernel, retry_refused_by_other dedupFleet (by decide +kernel)⟩

/-- The retry copy is delivered before the handler that published it has released the key. -/
def earlyRetry : List (FleetStep dedupFleet) :=
  [.publish (stageDelivery false).message, .deliver 0 retryWorker 1 ⟨"0", 0⟩] ++ acts 0 5 ++
  [.returnCopy 0 fun _ => none, .deliver 0 retryWorker 2 ⟨"1", 0⟩] ++ acts 1 2

def conflictLetter : StoreEvent → Bool
  | ⟨.other (.publishRaw "ocr.dlq" copy), .ok _⟩ =>
    match copy.headers "x-relayna-failure-reason" with
    | some (.str reason) => reason == "dedup_conflict"
    | _ => false
  | _ => false

/-- There is one original message only, and its retry copy is dead-lettered for a conflict. -/
theorem retry_copy_conflicts_with_predecessor :
    (dedupFleet.machine.exec .empty earlyRetry).map
        (fun s => (s.origins,
          s.handlings.map fun h => (h.parcel.origin, h.past.any conflictLetter))) =
          some (1, [(0, false), (0, true)]) ∧
      ¬dedupFleet.machine.Along RefusedByOther .empty earlyRetry := by
  constructor
  · decide +kernel
  · decide +kernel

end Relayna.Consumer
