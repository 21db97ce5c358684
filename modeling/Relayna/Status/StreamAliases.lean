import Relayna.Contracts.Aliases
import Relayna.Foundation.Reaching
import Relayna.Status.Stream

/-!
# Aliases on the status stream

One call of `stream` as a function of the history it reads and of the messages it takes from the
channel. The id by which it drops what it has sent, and the status at which it returns, are those
of the event after the aliases have been applied. So a configuration that touches `event_id` or
`status` changes more than names: with `status` renamed no event ends the stream, and with
`event_id` renamed no event is dropped.

`Unnoticed` says when the names are all that changes: at every arrival that the stream without
aliases reaches, its public form repeats an id, and ends the stream, exactly when the plain one
does.
-/
namespace Relayna.Status

open Contracts Python Pass

/-- What the live loop gets from `_next_pubsub_message`. -/
inductive LiveMessage where
  | keepalive
  /-- No message of type `message`, or one without data. -/
  | noData
  /-- `json.loads` raises a `JSONDecodeError`. -/
  | malformed
  /-- `json.loads` raises something else. -/
  | undecodable
  | parsed (document : Value)

/-- What the stream does with an item or a message. -/
inductive Handling where
  | sent (frame : Frame)
  | duplicate
  | keepalive
  | skipped
  | unreadable

inductive Ending where
  | waiting
  | returned
  | raised
  deriving DecidableEq, Repr

structure Output where
  handled : List Handling
  ending : Ending

namespace Output

def after (h : Handling) (o : Output) : Output := { o with handled := h :: o.handled }

end Output

/-- `dict(parsed)`; `other` is what it gives for a document that is no object, `none` where it
raises. -/
def dictOf (other : Value → Option (Fields Value)) : Value → Option (Fields Value)
  | .dict fields => some fields
  | document => other document

namespace SSEStatusStream

variable (s : SSEStatusStream) (other : Value → Option (Fields Value))

/-- The event is yielded, then its status decides whether the loop goes on with `rest`. -/
def yielding (data : Fields Value) (rest : Output) : Output :=
  match s.isTerminal (data.lookup "status") with
  | some false => rest.after (.sent (sseEvent data))
  | some true => ⟨[.sent (sseEvent data)], .returned⟩
  | none => ⟨[.sent (sseEvent data)], .raised⟩

/-- `emitted_event_id in seen_event_ids`. -/
def suppressed (seen : List String) (data : Fields Value) : Bool :=
  match eventId data with
  | some id => decide (id ∈ seen)
  | none => false

/-- The `while True` loop. -/
def liveLoop (seen : List String) : List LiveMessage → Output
  | [] => ⟨[], .waiting⟩
  | .keepalive :: rest => (liveLoop seen rest).after .keepalive
  | .noData :: rest | .malformed :: rest => (liveLoop seen rest).after .skipped
  | .undecodable :: _ => ⟨[.unreadable], .raised⟩
  | .parsed document :: rest =>
    match dictOf other document with
    | none => ⟨[.unreadable], .raised⟩
    | some fields =>
      let data := s.toPublicEvent fields
      if suppressed seen data then (liveLoop seen rest).after .duplicate
      else s.yielding data (liveLoop ((eventId data).toList ++ seen) rest)

/-- The loop over `history_items`, then the live loop. -/
def replayLoop (live : List LiveMessage) (seen : List String) : List Value → Output
  | [] => s.liveLoop other seen live
  | item :: rest =>
    let data := s.publicEvent item
    s.yielding data (replayLoop live ((eventId data).toList ++ seen) rest)

/-- `stream(task_id, last_event_id=last_event_id)`, where `get_history` gives `history` and the
messages `live` come from the channel. -/
def stream (lastEventId : Option String) (history : List Value) (live : List LiveMessage) :
    Output :=
  s.replayLoop other live [] (replayAfter lastEventId history.reverse)

end SSEStatusStream

/-! ## The stream beside its publisher -/

def Handling.frame? : Handling → Option Frame
  | .sent frame => some frame
  | _ => none

def Output.frames (o : Output) : List Frame := o.handled.filterMap Handling.frame?

namespace Streaming

/-- What the stream of `streaming` still does if nothing more is published. Its channel brings
dictionaries only. -/
def remaining (s : SSEStatusStream) (lastEventId : Option String) (t : Streaming) : Output :=
  let messages (position : Nat) := (t.keys.channel.drop position).map .parsed
  let history := replayAfter lastEventId (s.store.getHistory t.keys none).reverse
  let other := fun document => some (entries document)
  match t.stage with
  | .subscribe => s.replayLoop other (messages t.keys.channel.length) t.seen history
  | .readHistory => s.replayLoop other (messages t.position) t.seen history
  | .replaying items => s.replayLoop other (messages t.position) t.seen items
  | .live => s.liveLoop other t.seen (messages t.position)
  | .ended => ⟨[], .returned⟩

end Streaming

section

variable {s : SSEStatusStream} {other : Value → Option (Fields Value)} {seen : List String}
  {data : Fields Value} {o : Output}

theorem dictOf_entries {document : Value} :
    dictOf (fun document => some (entries document)) document = some (entries document) := by
  cases document <;> rfl

theorem SSEStatusStream.liveLoop_parsed {document : Value} {fields : Fields Value}
    {live : List LiveMessage} (h : dictOf other document = some fields) :
    s.liveLoop other seen (.parsed document :: live) =
      if suppressed seen (s.toPublicEvent fields) then
        (s.liveLoop other seen live).after .duplicate
      else s.yielding (s.toPublicEvent fields)
        (s.liveLoop other ((eventId (s.toPublicEvent fields)).toList ++ seen) live) := by
  rw [liveLoop, h]

theorem SSEStatusStream.frames_yielding : (s.yielding data o).frames = sseEvent data ::
    if s.isTerminal (data.lookup "status") = some false then o.frames else [] := by
  unfold yielding
  split <;> simp [*, Output.frames, Output.after, Handling.frame?]

theorem Streaming.emit_remaining {lastEventId : Option String} {t : Streaming} {item : Value}
    {next : Stage} (later : s.showsTerminal item = some false →
      (t.emit s item next).remaining s lastEventId = o) :
    t.frames ++ (s.yielding (s.publicEvent item) o).frames =
      (t.emit s item next).frames ++ ((t.emit s item next).remaining s lastEventId).frames := by
  have sent : (t.emit s item next).frames = t.frames ++ [s.frame item] := rfl
  rw [SSEStatusStream.frames_yielding, sent, List.append_assoc, List.singleton_append]
  by_cases goes : s.showsTerminal item = some false
  · rw [later goes]
    exact congrArg (t.frames ++ sseEvent (s.publicEvent item) :: ·) (if_pos goes)
  · have ended : (t.emit s item next).stage = .ended := if_neg goes
    rw [remaining, ended]
    exact congrArg (t.frames ++ sseEvent (s.publicEvent item) :: ·) (if_neg goes)

theorem Streaming.receive_eq {t : Streaming} {item : Value} : t.receive s item =
    if SSEStatusStream.suppressed t.seen (s.toPublicEvent (entries item)) then t
    else t.emit s item .live := by
  rw [receive, SSEStatusStream.suppressed, SSEStatusStream.publicId, SSEStatusStream.publicEvent]
  cases eventId (s.toPublicEvent (entries item)) with
  | none => rfl
  | some id => simp only [decide_eq_true_eq]

/-- Each step of the stream yields the next of the frames that the loops yield. -/
theorem Streaming.advance_remaining {lastEventId : Option String} {t t' : Streaming}
    (h : t.advance s lastEventId = some t') :
    t.frames ++ (t.remaining s lastEventId).frames =
      t'.frames ++ (t'.remaining s lastEventId).frames := by
  obtain ⟨keys, todo, call, stage, position, seen, frames, read, sent⟩ := t
  cases stage with
  | subscribe =>
    cases h
    rfl
  | readHistory =>
    cases h
    rfl
  | replaying items =>
    cases items with
    | nil =>
      cases h
      rfl
    | cons item items =>
      cases h
      refine Streaming.emit_remaining fun goes => ?_
      rw [Streaming.remaining, Streaming.emit, if_pos goes]
      rfl
  | live =>
    obtain ⟨item, found, rfl⟩ := Option.map_eq_some_iff.mp h
    obtain ⟨inside, here⟩ := List.getElem?_eq_some_iff.mp found
    have more : keys.channel.drop position = item :: keys.channel.drop (position + 1) :=
      (List.drop_eq_getElem_cons inside).trans (congrArg (· :: _) here)
    rw [Streaming.receive_eq, Streaming.remaining]
    dsimp only
    rw [more, List.map_cons, SSEStatusStream.liveLoop_parsed dictOf_entries]
    by_cases known : SSEStatusStream.suppressed seen (s.toPublicEvent (entries item)) = true
    · rw [if_pos known, if_pos known]
      rfl
    · rw [if_neg known, if_neg known]
      refine Streaming.emit_remaining
        (t := ⟨keys, todo, call, .live, position + 1, seen, frames, read, sent⟩) fun goes => ?_
      rw [Streaming.remaining, Streaming.emit, if_pos goes]
      rfl
  | ended => cases h

end

/-! ## The two runs -/

/-- The frame of the renamed payload. -/
def Handling.renamed (config : ContractAliasConfig) : Handling → Handling
  | .sent frame => .sent (sseEvent (publicOutputAliases frame.data (some config)))
  | h => h

def Output.renamed (config : ContractAliasConfig) (o : Output) : Output :=
  { o with handled := o.handled.map (Handling.renamed config) }

/-- What the stream takes up: first the items of the history, then the messages. -/
inductive Arrival where
  | stored (item : Value)
  | message (m : LiveMessage)

def arrivals (history : List Value) (live : List LiveMessage) : List Arrival :=
  history.map .stored ++ live.map .message

namespace SSEStatusStream

variable (s : SSEStatusStream) (other : Value → Option (Fields Value))

def withAliases (aliasConfig : Option ContractAliasConfig) : SSEStatusStream :=
  { s with aliasConfig := aliasConfig }

/-- The public form of the event that arrives. -/
def arriving : Arrival → Option (Fields Value)
  | .stored item => some (s.publicEvent item)
  | .message (.parsed document) => (dictOf other document).map s.toPublicEvent
  | .message _ => none

/-- Reading the message raises. -/
def Unreadable : Arrival → Prop
  | .message .undecodable => True
  | .message (.parsed document) => dictOf other document = none
  | _ => False

/-- A message of the channel with the id of an earlier arrival. -/
def Repeats (before : List Arrival) : Arrival → Prop
  | .stored _ => False
  | .message m => ∃ id, (s.arriving other (.message m)).bind eventId = some id ∧
      ∃ b ∈ before, (s.arriving other b).bind eventId = some id

/-- The terminal test on the event; an arrival without event ends nothing. -/
def ending (a : Arrival) : Option Bool :=
  match s.arriving other a with
  | some data => s.isTerminal (data.lookup "status")
  | none => some false

/-- The stream takes nothing up after `a`. -/
def Stops (before : List Arrival) (a : Arrival) : Prop :=
  Unreadable other a ∨ ¬s.Repeats other before a ∧ s.ending other a ≠ some false

/-- With and without the aliases `a` repeats an earlier id, or does not; and if it does not, the
terminal test comes out the same. -/
def AlikeAt (config : ContractAliasConfig) (before : List Arrival) (a : Arrival) : Prop :=
  ((s.withAliases (some config)).Repeats other before a ↔
      (s.withAliases none).Repeats other before a) ∧
    (¬(s.withAliases none).Repeats other before a →
      (s.withAliases (some config)).ending other a = (s.withAliases none).ending other a)

/-- The aliases go unnoticed on the arrivals that the stream without aliases reaches. -/
def Unnoticed (config : ContractAliasConfig) : List Arrival → Prop :=
  Reaching ((s.withAliases none).Stops other) (s.AlikeAt other config) []

/-- `seen` has the ids of the arrivals before. -/
def Remembers (before : List Arrival) (seen : List String) : Prop :=
  ∀ id, id ∈ seen ↔ ∃ b ∈ before, (s.arriving other b).bind eventId = some id

/-! ## One arrival -/

variable {s other} {config : ContractAliasConfig} {before : List Arrival} {a : Arrival}
  {seen : List String} {data : Fields Value}

theorem suppressed_iff :
    suppressed seen data = true ↔ ∃ id, eventId data = some id ∧ id ∈ seen := by
  unfold suppressed
  cases h : eventId data with
  | none => simp
  | some id => simp

theorem exists_mem_concat {P : Arrival → Prop} :
    (∃ b ∈ before ++ [a], P b) ↔ (∃ b ∈ before, P b) ∨ P a := by
  simp only [List.mem_append, List.mem_singleton, or_and_right, exists_or, exists_eq_left]

theorem Remembers.keep (h : s.Remembers other before seen)
    (known : ∀ id, (s.arriving other a).bind eventId = some id → id ∈ seen) :
    s.Remembers other (before ++ [a]) seen := by
  intro id
  rw [exists_mem_concat, ← h id]
  exact (or_iff_left_of_imp (known id)).symm

theorem Remembers.add (h : s.Remembers other before seen)
    (ha : s.arriving other a = some data) :
    s.Remembers other (before ++ [a]) ((eventId data).toList ++ seen) := by
  intro id
  rw [exists_mem_concat, ← h id, List.mem_append, ha, or_comm, Option.mem_toList]
  rfl

theorem Remembers.repeated {m : LiveMessage} (h : s.Remembers other before seen)
    (repeats : s.Repeats other before (.message m)) :
    s.Remembers other (before ++ [.message m]) seen := by
  refine h.keep fun id hid => ?_
  obtain ⟨known, hknown, earlier⟩ := repeats
  obtain rfl := Option.some.inj (hid.symm.trans hknown)
  exact (h id).mpr earlier

theorem Remembers.suppressed_iff {m : LiveMessage} (h : s.Remembers other before seen)
    (hm : s.arriving other (.message m) = some data) :
    suppressed seen data = true ↔ s.Repeats other before (.message m) := by
  rw [SSEStatusStream.suppressed_iff, Repeats, hm]
  exact exists_congr fun id => and_congr_right fun _ => h id

end SSEStatusStream

namespace Output

variable {h h' : Handling} {o o' : Output} {config : ContractAliasConfig}

theorem after_inj : o.after h = o'.after h' ↔ h = h' ∧ o = o' := by
  cases o
  cases o'
  simp only [after, mk.injEq, List.cons.injEq, and_assoc]

theorem after_renamed : (o.after h).renamed config = (o.renamed config).after (h.renamed config) :=
  rfl

/-- Nothing has been taken up only where nothing has come. -/
def Started (o : Output) : Prop := o.handled = [] → o.ending = .waiting

theorem Started.after : (o.after h).Started := fun empty => (List.cons_ne_nil _ _ empty).elim

theorem Started.renamed (h : o.Started) : (o.renamed config).Started := fun empty =>
  h (List.map_eq_nil_iff.mp empty)

/-- A run that goes on after `h` is not one that ends there. -/
theorem Started.after_ne (started : o.Started) {e : Ending} (he : e ≠ .waiting) :
    o.after h ≠ ⟨[h'], e⟩ := by
  intro same
  obtain ⟨heads, ends⟩ := mk.inj same
  have empty : o.handled = [] := (List.cons.inj heads).2
  exact he (ends.symm.trans (started empty))

end Output

namespace SSEStatusStream

variable {s : SSEStatusStream} {other : Value → Option (Fields Value)}
  {config : ContractAliasConfig} {before : List Arrival} {seen seen' : List String}
  {data data' : Fields Value} {o o' : Output}

theorem started_yielding : (s.yielding data o).Started := by
  unfold yielding
  split <;> exact fun empty => (List.cons_ne_nil _ _ empty).elim

/-- The frame of a renamed event is the renamed frame; what follows is the same when the terminal
test is. -/
theorem yielding_renamed_iff (ho : o.Started) (ho' : o'.Started) :
    s.yielding (publicOutputAliases data (some config)) o' = (s.yielding data o).renamed config ↔
      s.isTerminal ((publicOutputAliases data (some config)).lookup "status") =
          s.isTerminal (data.lookup "status") ∧
        (s.isTerminal (data.lookup "status") = some false → o' = o.renamed config) := by
  have last (e : Ending) : (Output.mk [.sent (sseEvent data)] e).renamed config =
      ⟨[.sent (sseEvent (publicOutputAliases data (some config)))], e⟩ := rfl
  have going : (o.after (.sent (sseEvent data))).renamed config =
      (o.renamed config).after (.sent (sseEvent (publicOutputAliases data (some config)))) := rfl
  have ends {h : Handling} {e : Ending} (he : e ≠ .waiting) :
      ⟨[h], e⟩ ≠ (o.renamed config).after h :=
    (ho.renamed.after_ne he).symm
  have ends' {h : Handling} {e : Ending} (he : e ≠ .waiting) : o'.after h ≠ ⟨[h], e⟩ :=
    ho'.after_ne he
  unfold yielding
  rcases s.isTerminal ((publicOutputAliases data (some config)).lookup "status") with _ | _ | _ <;>
    rcases s.isTerminal (data.lookup "status") with _ | _ | _ <;>
    simp [going, last, Output.after_inj, ends, ends']

theorem yielding_ne_duplicate : s.yielding data o ≠ o'.after .duplicate := by
  have ne (f : Frame) (hs : List Handling) : .sent f :: hs ≠ .duplicate :: o'.handled :=
    fun same => Handling.noConfusion (List.cons.inj same).1
  unfold yielding
  split <;> exact fun same => ne _ _ (Output.mk.inj same).1

theorem duplicate_ne_yielding :
    o'.after .duplicate ≠ (s.yielding data o).renamed config := by
  have ne (f : Frame) (hs : List Handling) : .duplicate :: o'.handled ≠ .sent f :: hs :=
    fun same => Handling.noConfusion (List.cons.inj same).1
  unfold yielding
  split <;> exact fun same => ne _ _ (Output.mk.inj same).1

theorem started_liveLoop {live : List LiveMessage} : (s.liveLoop other seen live).Started := by
  cases live with
  | nil => exact fun _ => rfl
  | cons m live =>
    cases m with
    | keepalive => exact Output.Started.after
    | noData => exact Output.Started.after
    | malformed => exact Output.Started.after
    | undecodable => exact fun empty => (List.cons_ne_nil _ _ empty).elim
    | parsed document =>
      rw [liveLoop]
      split
      · exact fun empty => (List.cons_ne_nil _ _ empty).elim
      · dsimp only
        split
        · exact Output.Started.after
        · exact started_yielding

theorem started_replayLoop {live : List LiveMessage} {items : List Value} :
    (s.replayLoop other live seen items).Started := by
  cases items with
  | nil => exact started_liveLoop
  | cons item items => exact started_yielding

/-! ## The rest of a run -/

section

variable {a : Arrival} {rest : List Arrival} {m : LiveMessage}

theorem not_repeats_silent (silent : s.arriving other (.message m) = none) :
    ¬s.Repeats other before (.message m) := by
  rintro ⟨id, hid, -⟩
  rw [silent] at hid
  cases hid

theorem ending_silent (silent : s.arriving other (.message m) = none) :
    s.ending other (.message m) = some false := by
  rw [ending, silent]

/-- An arrival without event is the same to both runs. -/
theorem alikeAt_silent (silent : ∀ c, (s.withAliases c).arriving other (.message m) = none) :
    s.AlikeAt other config before (.message m) := by
  refine ⟨iff_of_false (not_repeats_silent (silent _)) (not_repeats_silent (silent _)), fun _ => ?_⟩
  rw [ending_silent (silent _), ending_silent (silent _)]

theorem reaching_silent (silent : ∀ c, (s.withAliases c).arriving other (.message m) = none)
    (readable : ¬Unreadable other (.message m)) :
    Reaching ((s.withAliases none).Stops other) (s.AlikeAt other config) before
        (.message m :: rest) ↔
      Reaching ((s.withAliases none).Stops other) (s.AlikeAt other config)
        (before ++ [.message m]) rest := by
  rw [reaching_cons, and_iff_right (alikeAt_silent silent)]
  refine forall_prop_of_true ?_
  rintro (unreadable | ⟨-, stops⟩)
  · exact readable unreadable
  · exact stops (ending_silent (silent none))

theorem reaching_unreadable (silent : ∀ c, (s.withAliases c).arriving other (.message m) = none)
    (unreadable : Unreadable other (.message m)) :
    Reaching ((s.withAliases none).Stops other) (s.AlikeAt other config) before
      (.message m :: rest) :=
  ⟨alikeAt_silent silent, fun goes => (goes (Or.inl unreadable)).elim⟩

/-- An event that both runs drop. -/
theorem reaching_repeat (plain : (s.withAliases none).Repeats other before a)
    (aliased : (s.withAliases (some config)).Repeats other before a)
    (readable : ¬Unreadable other a) :
    Reaching ((s.withAliases none).Stops other) (s.AlikeAt other config) before (a :: rest) ↔
      Reaching ((s.withAliases none).Stops other) (s.AlikeAt other config) (before ++ [a])
        rest := by
  have goes : ¬(s.withAliases none).Stops other before a := by
    rintro (unreadable | ⟨fresh, -⟩)
    · exact readable unreadable
    · exact fresh plain
  rw [reaching_cons, and_iff_right ⟨iff_of_true aliased plain, fun fresh => absurd plain fresh⟩,
    forall_prop_of_true goes]

/-- An event that neither run drops. -/
theorem yielding_iff {fields : Fields Value} (arrives : ∀ c, (s.withAliases c).arriving other a =
      some ((s.withAliases c).toPublicEvent fields))
    (plain : ¬(s.withAliases none).Repeats other before a)
    (aliased : ¬(s.withAliases (some config)).Repeats other before a)
    (readable : ¬Unreadable other a)
    (ho : o.Started) (ho' : o'.Started) (later : o' = o.renamed config ↔
      Reaching ((s.withAliases none).Stops other) (s.AlikeAt other config) (before ++ [a]) rest) :
    (s.withAliases (some config)).yielding ((s.withAliases (some config)).toPublicEvent fields) o' =
        ((s.withAliases none).yielding ((s.withAliases none).toPublicEvent fields) o).renamed
          config ↔
      Reaching ((s.withAliases none).Stops other) (s.AlikeAt other config) before (a :: rest) := by
  have test (c : Option ContractAliasConfig) : (s.withAliases c).ending other a =
      s.isTerminal (((s.withAliases c).toPublicEvent fields).lookup "status") := by
    rw [ending, arrives c]
    rfl
  have goes : ¬(s.withAliases none).Stops other before a ↔
      (s.withAliases none).ending other a = some false := by
    rw [Stops, or_iff_right readable, and_iff_right plain, not_not]
  rw [reaching_cons, AlikeAt, and_iff_right (iff_of_false aliased plain),
    forall_prop_of_true plain, imp_congr_left goes, ← later, test, test]
  exact yielding_renamed_iff ho ho'

theorem liveLoop_unreadable {document : Value} {live : List LiveMessage}
    (h : dictOf other document = none) :
    s.liveLoop other seen (.parsed document :: live) = ⟨[.unreadable], .raised⟩ := by
  rw [liveLoop, h]

theorem liveLoop_iff {live : List LiveMessage}
    (plain : (s.withAliases none).Remembers other before seen)
    (aliased : (s.withAliases (some config)).Remembers other before seen') :
    (s.withAliases (some config)).liveLoop other seen' live =
        ((s.withAliases none).liveLoop other seen live).renamed config ↔
      Reaching ((s.withAliases none).Stops other) (s.AlikeAt other config) before
        (live.map .message) := by
  induction live generalizing before seen seen' with
  | nil => exact iff_of_true rfl trivial
  | cons m live ih =>
    rw [List.map_cons]
    have silently {h : Handling} (hh : h.renamed config = h)
        (silent : ∀ c, (s.withAliases c).arriving other (.message m) = none)
        (readable : ¬Unreadable other (.message m)) :
        ((s.withAliases (some config)).liveLoop other seen' live).after h =
            (((s.withAliases none).liveLoop other seen live).after h).renamed config ↔
          Reaching ((s.withAliases none).Stops other) (s.AlikeAt other config) before
            (.message m :: live.map .message) := by
      have known (c : Option ContractAliasConfig) (seen : List String) : ∀ id,
          ((s.withAliases c).arriving other (.message m)).bind eventId = some id → id ∈ seen := by
        intro id hid
        rw [silent c] at hid
        cases hid
      rw [Output.after_renamed, hh, Output.after_inj, and_iff_right rfl,
        ih (plain.keep (known _ _)) (aliased.keep (known _ _)), reaching_silent silent readable]
    cases m with
    | keepalive => exact silently rfl (fun _ => rfl) not_false
    | noData => exact silently rfl (fun _ => rfl) not_false
    | malformed => exact silently rfl (fun _ => rfl) not_false
    | undecodable =>
      exact iff_of_true rfl (reaching_unreadable (fun _ => rfl) trivial)
    | parsed document =>
      cases hd : dictOf other document with
      | none =>
        have silent (c : Option ContractAliasConfig) :
            (s.withAliases c).arriving other (.message (.parsed document)) = none := by
          rw [arriving, hd, Option.map_none]
        rw [liveLoop_unreadable hd, liveLoop_unreadable hd]
        exact iff_of_true rfl (reaching_unreadable silent hd)
      | some fields =>
        have arrives (c : Option ContractAliasConfig) :
            (s.withAliases c).arriving other (.message (.parsed document)) =
              some ((s.withAliases c).toPublicEvent fields) := by
          rw [arriving, hd, Option.map_some]
        have readable : ¬Unreadable other (.message (.parsed document)) := by
          rw [Unreadable, hd]
          exact Option.some_ne_none _
        have seenPlain := plain.suppressed_iff (arrives none)
        have seenAliased := aliased.suppressed_iff (arrives (some config))
        rw [liveLoop_parsed hd, liveLoop_parsed hd]
        by_cases old : (s.withAliases none).Repeats other before (.message (.parsed document))
        · rw [if_pos (seenPlain.mpr old)]
          by_cases old' :
            (s.withAliases (some config)).Repeats other before (.message (.parsed document))
          · have same : Handling.duplicate.renamed config = .duplicate := rfl
            rw [if_pos (seenAliased.mpr old'), Output.after_renamed, same, Output.after_inj,
              and_iff_right rfl, reaching_repeat old old' readable]
            exact ih (plain.repeated old) (aliased.repeated old')
          · rw [if_neg (seenAliased.not.mpr old'), Output.after_renamed]
            refine iff_of_false yielding_ne_duplicate fun h => ?_
            exact old' (h.1.1.mpr old)
        · rw [if_neg (seenPlain.not.mpr old)]
          by_cases old' :
            (s.withAliases (some config)).Repeats other before (.message (.parsed document))
          · rw [if_pos (seenAliased.mpr old')]
            refine iff_of_false (fun h => ?_) fun h => old (h.1.1.mp old')
            exact duplicate_ne_yielding h
          · rw [if_neg (seenAliased.not.mpr old')]
            exact yielding_iff arrives old old' readable started_liveLoop started_liveLoop
              (ih (plain.add (arrives none)) (aliased.add (arrives (some config))))

theorem replayLoop_iff {items : List Value} {live : List LiveMessage}
    (plain : (s.withAliases none).Remembers other before seen)
    (aliased : (s.withAliases (some config)).Remembers other before seen') :
    (s.withAliases (some config)).replayLoop other live seen' items =
        ((s.withAliases none).replayLoop other live seen items).renamed config ↔
      Reaching ((s.withAliases none).Stops other) (s.AlikeAt other config) before
        (arrivals items live) := by
  induction items generalizing before seen seen' with
  | nil => exact liveLoop_iff plain aliased
  | cons item items ih =>
    have fresh (c : Option ContractAliasConfig) :
        ¬(s.withAliases c).Repeats other before (.stored item) := not_false
    exact yielding_iff (fun _ => rfl) (fresh _) (fresh _) not_false started_replayLoop
      started_replayLoop (ih (plain.add rfl) (aliased.add rfl))

end

theorem remembers_nil : s.Remembers other [] [] := fun _ =>
  iff_of_false List.not_mem_nil fun ⟨_, hb, _⟩ => List.not_mem_nil hb

/-! ## Which configurations go unnoticed -/

/-- Aliases change only names exactly where they go unnoticed. -/
theorem stream_aliases (s : SSEStatusStream) (other : Value → Option (Fields Value))
    (config : ContractAliasConfig) (lastEventId : Option String) (history : List Value)
    (live : List LiveMessage) :
    (s.withAliases (some config)).stream other lastEventId history live =
        ((s.withAliases none).stream other lastEventId history live).renamed config ↔
      s.Unnoticed other config (arrivals (replayAfter lastEventId history.reverse) live) :=
  replayLoop_iff remembers_nil remembers_nil

/-- One stored event, `completed`, of a stream that returns at `completed`. -/
def completedStream : SSEStatusStream where
  store := ⟨plainText, "relayna", 100, false⟩
  lower := id
  terminalStatuses := ["completed", "failed"]
  outputAdapter := id
  aliasConfig := none

/-- With `status` under another name the stream goes on behind the event that ends it. -/
theorem status_alias_hides_the_end :
    (completedStream.withAliases (some ⟨[("status", "state")]⟩)).stream (fun _ => none) none
        [.dict [("task_id", .str "t"), ("status", .str "completed")]] [] ≠
      ((completedStream.withAliases none).stream (fun _ => none) none
        [.dict [("task_id", .str "t"), ("status", .str "completed")]] []).renamed
          ⟨[("status", "state")]⟩ := by
  intro same
  have : Ending.waiting = Ending.returned := congrArg Output.ending same
  cases this

end SSEStatusStream

end Relayna.Status
