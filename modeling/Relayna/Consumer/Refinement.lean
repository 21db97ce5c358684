import Relayna.Consumer.Health

/-!
# The consumers keep to the protocol

Each consumer is a refinement of the life of a delivery: its runs reach a phase, and a run that
returns has closed the delivery. A run that raises is broken by an operation that failed, or it
has refused a message it cannot digest before anything was done with it.

`W` stands for what `run_forever` provides and `D` for what makes a message digestible.
-/
namespace Relayna.Consumer

open Python Contracts Await

/-- Raised because an operation did, or because something `run_forever` provides is missing. -/
def Broken (p : Plan) (W : Prop) (t : List Event) : Prop :=
  (∃ phase, Reaches p t phase) ∧ (W → Unhealthy t)

/-- Raised although all operations succeeded. -/
def Refused (p : Plan) (D : Prop) (t : List Event) : Prop :=
  (∃ published, Reaches p t (.opened published)) ∧ ¬D

def Fails (p : Plan) (W D : Prop) (t : List Event) : Prop := Broken p W t ∨ Refused p D t

def Settled (p : Plan) (t : List Event) : Prop := ∃ before, Reaches p t (.closed before)

/-- What a procedure leaves behind that returns whether the message is still to be acked. -/
def Verdict (p : Plan) : Bool → List Event → Prop
  | true, t => ∃ phase, phase.Ackable p ∧ Reaches p t phase
  | false, t => Settled p t

/-- A lease or a dedup marker that is held by somebody else. -/
def denied : Event → Bool
  | ⟨.acquireLease _, .ok granted⟩ | ⟨.acquireDedup _, .ok granted⟩ => !granted
  | _ => false

theorem denied_granting (op : Op) : denied ⟨op, granting op⟩ = false := by cases op <;> rfl

/-- The message was digestible, or it did not come to that. -/
def Digested (D : Prop) (t : List Event) : Prop := D ∨ ∃ e ∈ t, denied e = true

variable {p : Plan} {W D D' : Prop} {phase next : Phase} {α : Type} {x : Proc α}
  {raises : Exc → Prop} {t : List Event}

theorem Stable.reaches : Stable fun t => Reaches p t phase :=
  fun _ _ h aux => h.snoc (.auxiliary aux)

theorem Stable.broken : Stable (Broken p W) := by
  rintro past e ⟨⟨phase, h⟩, bad⟩ aux
  exact ⟨⟨phase, h.snoc (.auxiliary aux)⟩, fun hw => Stable.unhealthy _ _ (bad hw) aux⟩

theorem Stable.fails : Stable (Fails p W D) := by
  rintro past e (h | ⟨⟨published, h⟩, hd⟩) aux
  · exact Or.inl (Stable.broken _ _ h aux)
  · exact Or.inr ⟨⟨published, h.snoc (.auxiliary aux)⟩, hd⟩

theorem Stable.settled : Stable (Settled p) := by
  rintro past e ⟨before, h⟩ aux
  exact ⟨before, h.snoc (.auxiliary aux)⟩

theorem Stable.verdict {acked : Bool} : Stable (Verdict p acked) := by
  cases acked with
  | true =>
    rintro past e ⟨phase, ackable, h⟩ aux
    exact ⟨phase, ackable, h.snoc (.auxiliary aux)⟩
  | false => exact Stable.settled

theorem Digested.imp (h : Digested D t) (stronger : D → D') : Digested D' t :=
  Or.imp_left stronger h

theorem Digested.mono (es : List Event) (h : Digested D t) : Digested D (t ++ es) := by
  obtain hd | ⟨e, he, hd⟩ := h
  · exact Or.inl hd
  · exact Or.inr ⟨e, List.mem_append_left _ he, hd⟩

theorem Verdict.reaches {acked : Bool} (h : Verdict p acked t) : ∃ phase, Reaches p t phase := by
  cases acked with
  | true =>
    obtain ⟨phase, -, h⟩ := h
    exact ⟨phase, h⟩
  | false =>
    obtain ⟨before, h⟩ := h
    exact ⟨_, h⟩

theorem Broken.fails (h : Broken p W t) : Fails p W D t := Or.inl h

theorem Fails.reaches (h : Fails p W D t) : ∃ phase, Reaches p t phase := by
  obtain ⟨h, -⟩ | ⟨⟨published, h⟩, -⟩ := h
  · exact h
  · exact ⟨_, h⟩

theorem Fails.mono (h : Fails p W D t) (weaker : D' → D) : Fails p W D' t :=
  h.imp_right fun refused => ⟨refused.1, fun hd => refused.2 (weaker hd)⟩

theorem Benign.keep {P : List Event → Prop} (hx : Benign raises x) (hP : Stable P)
    (reaches : ∀ t, P t → ∃ phase, Reaches p t phase) :
    Triple P x (fun _ => P) (fun _ => Broken p W) :=
  (hx P hP).conseq (fun _ => id) (fun _ _ => id) fun _ t h => ⟨reaches t h.1, fun _ => h.2.1⟩

/-- A benign helper in a known phase. -/
theorem Benign.at (hx : Benign raises x) :
    Triple (fun t => Reaches p t phase) x (fun _ t => Reaches p t phase) (fun _ => Broken p W) :=
  hx.keep Stable.reaches fun _ h => ⟨phase, h⟩

theorem Calm.interrupts (hx : Calm x) :
    Triple (fun t => Reaches p t phase) x (fun _ t => Reaches p t phase)
      (fun exc t => exc = .cancelled ∧ Broken p W t) :=
  (hx _ Stable.reaches).conseq (fun _ => id) (fun _ _ => id)
    fun _ _ h => ⟨h.2.2, ⟨phase, h.1⟩, fun _ => h.2.1⟩

theorem triple_fails {P : List Event → Prop} {Q : α → List Event → Prop}
    (h : Triple P x Q (fun _ => Broken p W)) : Triple P x Q (fun _ => Fails p W D) :=
  h.conseq (fun _ => id) (fun _ _ => id) fun _ _ h => h.fails

theorem perform_triple {op : Op} (hok : ∀ a, Advance p phase ⟨op, .ok a⟩ next)
    (herr : ∀ exc, (∃ other, Advance p phase ⟨op, .error exc⟩ other) ∧
      healthy ⟨op, .error exc⟩ = false) :
    Triple (fun t => Reaches p t phase) (perform op) (fun _ t => Reaches p t next)
      (fun _ => Broken p W) := by
  refine .perform (fun t a h => h.snoc (hok a)) fun t exc h => ?_
  obtain ⟨⟨other, advance⟩, bad⟩ := herr exc
  exact ⟨⟨other, h.snoc advance⟩, fun _ => unhealthy_snoc bad⟩

theorem ack_triple (ackable : phase.Ackable p) :
    Triple (fun t => Reaches p t phase) ack (fun _ => Settled p) (fun _ => Broken p W) :=
  (perform_triple (fun _ => .acked ackable) fun _ => ⟨⟨_, .acked ackable⟩, rfl⟩).conseq
    (fun _ => id) (fun _ _ h => ⟨phase, h⟩) fun _ _ => id

theorem ack_of_verdict :
    Triple (Verdict p true) ack (fun _ => Settled p) (fun _ => Broken p W) :=
  .of_exists fun _ => .of_and fun ackable => ack_triple ackable

theorem reject_triple (requeue : Bool) :
    Triple (fun t => Reaches p t (.opened [])) (reject requeue) (fun _ => Settled p)
      (fun _ => Broken p W) :=
  (perform_triple (fun _ => .rejected) fun _ => ⟨⟨_, .rejected⟩, rfl⟩).conseq
    (fun _ => id) (fun _ _ h => ⟨_, h⟩) fun _ _ => id

theorem abandon_triple (requeue : Bool) (hm : p.maxRetries = none) :
    Triple (fun t => Reaches p t .failed) (reject requeue) (fun _ => Settled p)
      (fun _ => Broken p W) :=
  (perform_triple (fun _ => .abandoned hm) fun _ => ⟨⟨_, .abandoned hm⟩, rfl⟩).conseq
    (fun _ => id) (fun _ _ h => ⟨_, h⟩) fun _ _ => id

/-- A benign helper once the message is settled. -/
theorem Benign.settled (hx : Benign raises x) :
    Triple (Settled p) x (fun _ => Settled p) (fun _ => Broken p W) :=
  hx.keep Stable.settled fun _ ⟨_, h⟩ => ⟨_, h⟩

/-- How the handler's part ends other than by a return. -/
def Faulted (p : Plan) (W : Prop) (exc : Exc) (t : List Event) : Prop :=
  (exc = .cancelled ∧ Broken p W t) ∨ (exc ≠ .cancelled ∧ Reaches p t .failed)

theorem faulted_of_raise {op : Op} {exc : Exc} (h : Reaches p t phase)
    (advance : Advance p phase ⟨op, .error exc⟩ .failed)
    (bad : exc = .cancelled → healthy ⟨op, .error exc⟩ = false) :
    Faulted p W exc (t ++ [⟨op, .error exc⟩]) := by
  by_cases cancelled : exc = .cancelled
  · exact Or.inl ⟨cancelled, ⟨_, h.snoc advance⟩, fun _ => unhealthy_snoc (bad cancelled)⟩
  · exact Or.inr ⟨cancelled, h.snoc advance⟩

/-- How the handler's part has ended. -/
abbrev Ended {α : Type} (p : Plan) (W : Prop) : Except Exc α → List Event → Prop :=
  Ending (fun _ t => Reaches p t .succeeded) (Faulted p W)

/-- The `try` statement of each consumer, with a benign `finally` block. -/
theorem tryStatement_triple {β : Type} {ended : Except Exc β} {completed : Proc α}
    {failed : Exc → Proc α} {final : Except Exc α → Proc Unit} {R : α → List Event → Prop}
    (hcompleted : Triple (fun t => Reaches p t .succeeded) completed R (fun _ => Broken p W))
    (hfailed : ∀ exc, Triple (fun t => Reaches p t .failed) (failed exc) R (fun _ => Broken p W))
    (stable : ∀ a, Stable (R a)) (reaches : ∀ a t, R a t → ∃ phase, Reaches p t phase)
    (hfinal : ∀ r, Benign raises (final r)) :
    Triple (Ended p W ended) ((onException ended completed failed).tryFinally final) R
      (fun _ => Broken p W) := by
  have body : Triple (Ended p W ended) (onException ended completed failed) R
      (fun _ => Broken p W) := by
    cases ended with
    | ok _ => exact hcompleted
    | error exc =>
      cases exc with
      | cancelled =>
        refine .raise fun t h => ?_
        obtain ⟨-, h⟩ | ⟨h, -⟩ := h
        · exact h
        · exact (h rfl).elim
      | _ =>
        refine (hfailed _).conseq (fun t h => ?_) (fun _ _ => id) fun _ _ => id
        obtain ⟨h, -⟩ | ⟨-, h⟩ := h
        · exact nomatch h
        · exact h
  refine .tryFinally body (fun a => (hfinal _).keep (stable a) (reaches a)) fun exc => ?_
  exact (hfinal _).keep Stable.broken fun _ h => h.1

section Copies

variable {policy : Option RetryPolicy} (s : Settings)

theorem publishRetryCopy_triple {maxRetries : Int} {reason : String}
    {exceptionType : Option String} {extraHeaders : Fields Value}
    {observation : RetryInfrastructure → Observation} (hm : p.maxRetries = some maxRetries)
    (lt : p.attempt < maxRetries)
    (extra : extraHeaders.foldl (fun headers (key, v) => headers.set key v) p.metadata.headers =
      p.kept)
    (wired : W → p.retryInfrastructure.isSome) :
    Triple (fun t => Reaches p t .failed)
      (s.publishRetryCopy policy p.toDelivery (p.attempt + 1) maxRetries reason exceptionType
        extraHeaders observation)
      (fun _ t => Reaches p t .retried) (fun _ => Broken p W) := by
  unfold Settings.publishRetryCopy
  split
  · rename_i hi
    exact .raise fun t h => ⟨⟨_, h⟩, fun hw => by simp [hi] at wired; exact (wired hw).elim⟩
  · rename_i infrastructure hi
    refine .bind (perform_triple
      (fun _ => .retried hi hm lt ⟨rfl, _, _, _, retryHeaders_extra _ _ _ _ _ _ _ extra⟩)
      fun _ => ⟨⟨_, .notPublished⟩, rfl⟩) fun _ => ?_
    exact (s.emitObservation_calm _).at

theorem publishDeadLetterCopy_triple {taskId : Option String} {reason : String}
    {exceptionType exceptionMessage : Option String} {extraHeaders : Fields Value}
    {observation : RetryInfrastructure → Int → Observation} {kept : Dict}
    (advance : ∀ {infrastructure copy}, p.retryInfrastructure = some infrastructure →
      p.IsCopy kept p.attempt copy →
      Advance p phase ⟨.publishRaw infrastructure.deadLetterQueueName copy, .ok ()⟩ next)
    (extra : extraHeaders.foldl (fun headers (key, v) => headers.set key v) p.metadata.headers =
      kept)
    (wired : W → p.retryInfrastructure.isSome ∧ policy.isSome) :
    Triple (fun t => Reaches p t phase)
      (s.publishDeadLetterCopy policy p.toDelivery taskId p.attempt reason exceptionType
        exceptionMessage extraHeaders observation)
      (fun _ t => Reaches p t next) (fun _ => Broken p W) := by
  unfold Settings.publishDeadLetterCopy
  split
  · rename_i infrastructure policy hi
    refine .bind (perform_triple
      (fun _ => advance hi ⟨rfl, _, _, _, retryHeaders_extra _ _ _ _ _ _ _ extra⟩)
      fun _ => ⟨⟨_, .notPublished⟩, rfl⟩) fun _ => ?_
    exact ((s.emitObservation_calm _).bind fun _ => s.persistDlqRecord_calm _).at
  · rename_i missing
    refine .raise fun t h => ⟨⟨_, h⟩, fun hw => ?_⟩
    obtain ⟨hi, hp⟩ := wired hw
    obtain ⟨infrastructure, hi⟩ := Option.isSome_iff_exists.mp hi
    obtain ⟨policy, hp⟩ := Option.isSome_iff_exists.mp hp
    exact (missing infrastructure policy hi hp).elim

end Copies

/-- `run_forever` prepares the retry infrastructure where there is a retry policy. -/
def Provided (policy : Option RetryPolicy) (retryInfrastructure : Option RetryInfrastructure) :
    Prop :=
  policy.isSome → retryInfrastructure.isSome

/-- The gauge of the attempt can be set. -/
def Settings.Measurable (s : Settings) (attempt : Int) : Prop :=
  s.metrics = true → fitsFloat (max 0 attempt)

theorem recordTaskStarted_triple (s : Settings) (labels : MetricLabels) :
    Triple (fun t => Reaches p t (.opened [])) (s.recordTaskStarted labels p.attempt)
      (fun _ t => s.Measurable p.attempt ∧ Reaches p t (.opened []))
      (fun _ => Fails p W (s.Measurable p.attempt)) := by
  unfold Settings.recordTaskStarted
  split
  · rename_i metrics
    split
    · rename_i fits
      exact (Benign.note rfl).at.conseq (fun _ => id) (fun _ _ h => ⟨fun _ => fits, h⟩)
        fun _ _ h => h.fails
    · rename_i large
      exact .raise fun t h => Or.inr ⟨⟨_, h⟩, fun fits => large (fits metrics)⟩
  · rename_i metrics
    exact .pure fun t h => ⟨fun on => (metrics on).elim, h⟩

end Relayna.Consumer
