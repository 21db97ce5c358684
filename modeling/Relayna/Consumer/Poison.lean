import Relayna.Consumer.Settlement

/-!
# Messages that cannot be settled

A delivery that raises leaves its message unsettled, and the broker delivers it again. When
every operation succeeds, this happens to the indigestible messages and to no others.
-/
namespace Relayna.Consumer

open Python Contracts Await

/-- Every healthy run of the consumer returns and has settled the message. -/
def AnyConsumer.Settles (c : AnyConsumer) (message : Message) (sourceQueueName : String)
    (retryInfrastructure : Option RetryInfrastructure) : Prop :=
  ∀ es res, Run (c.handle message sourceQueueName retryInfrastructure) es res →
    (∀ e ∈ es, healthy e = true) → res = .ok () ∧ ∃ e ∈ es, e.op.settles = true

theorem Settled.settles {p : Plan} {es : List Event} (h : Settled p es) :
    ∃ e ∈ es, e.op.settles = true := by
  obtain ⟨before, reaches⟩ := h
  have once : 0 < es.countP (·.op.settles) := by
    rw [reaches.settlements]
    exact Nat.one_pos
  exact List.countP_pos_iff.mp once

/-- A healthy run fails only where the message is refused. -/
theorem Fails.not_digestible {p : Plan} {W D : Prop} {es : List Event} (h : Fails p W D es)
    (wired : W) (calm : ∀ e ∈ es, healthy e = true) : ¬D := by
  obtain ⟨-, broken⟩ | ⟨-, refused⟩ := h
  · obtain ⟨e, he, bad⟩ := broken wired
    simp [calm e he] at bad
  · exact refused

section

variable {c : AnyConsumer} {message : Message} {sourceQueueName : String}
  {retryInfrastructure : Option RetryInfrastructure}

theorem AnyConsumer.Digestible.settles (digestible : c.Digestible message)
    (wired : c.Wired retryInfrastructure) :
    c.Settles message sourceQueueName retryInfrastructure := by
  intro es res run calm
  obtain ⟨attempt, readable, digestible⟩ := digestible
  obtain ⟨exc, unreadable, -, -⟩ | ⟨metadata, hm, ending⟩ := handle_run run
  · simp [extractMessageMetadata, readable, Except.map] at unreadable
  · obtain rfl : attempt = metadata.retryAttempt :=
      Except.ok.inj (readable.symm.trans (extractMessageMetadata_ok hm).2)
    cases res with
    | ok _ => exact ⟨rfl, ending.1.settles⟩
    | error exc => exact (Fails.not_digestible ending wired calm digestible).elim

/-- The run in which everything is granted shows that the message is digestible. -/
theorem AnyConsumer.Settles.digestible
    (settles : c.Settles message sourceQueueName retryInfrastructure) : c.Digestible message := by
  have run := run_exec granting (c.handle message sourceQueueName retryInfrastructure)
  have answered := fun e => answer_of_mem_exec granting (e := e)
    (x := c.handle message sourceQueueName retryInfrastructure)
  generalize (c.handle message sourceQueueName retryInfrastructure).exec granting = path at *
  obtain ⟨es, res⟩ := path
  have granted : ∀ e ∈ es, e = ⟨e.op, granting e.op⟩ := fun e he => by
    rw [← answered e he]
  obtain ⟨rfl, -⟩ := settles es res run fun e he => granted e he ▸ healthy_granting e.op
  obtain ⟨exc, -, -, raised⟩ | ⟨metadata, hm, -, digestible | ⟨e, he, refused⟩⟩ := handle_run run
  · exact nomatch raised
  · exact ⟨_, (extractMessageMetadata_ok hm).2, digestible⟩
  · rw [granted e he, denied_granting] at refused
    exact nomatch refused

theorem AnyConsumer.settles_iff_digestible (wired : c.Wired retryInfrastructure) :
    c.Settles message sourceQueueName retryInfrastructure ↔ c.Digestible message :=
  ⟨Settles.digestible, fun digestible => digestible.settles wired⟩

end

/-- A status event without headers is digestible, so it is settled. -/
theorem AnyConsumer.settles_without_headers :
    (statusConsumer 3).Wired (some statusQueues) ∧
      (statusConsumer 3).Settles (statusMessage statusBody fun _ => none) "status"
        (some statusQueues) := by
  have wired : (statusConsumer 3).Wired (some statusQueues) := fun _ => rfl
  refine ⟨wired, (settles_iff_digestible wired).mpr ⟨0, rfl, ?_⟩⟩
  rintro event ⟨⟩
  exact ⟨⟨fun v h => (nomatch h), fun fields count h => (nomatch h)⟩, fun on => nomatch on⟩

/-- An infinite float in the attempt header raises before anything has been done. -/
theorem AnyConsumer.not_settles_infinite_attempt :
    ¬(statusConsumer 3).Settles
      (statusMessage statusBody
        (Dict.set (fun _ => none) "x-relayna-retry-attempt" (.float (.inf false))))
      "status" (some statusQueues) := by
  intro settles
  have := settles [] (.error (overflowError "cannot convert float infinity to integer"))
    (run_exec granting _) (by simp)
  exact nomatch this.1

end Relayna.Consumer
