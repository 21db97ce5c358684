import Relayna.Status.StreamPublisher

/-!
# What a fresh stream delivers

Without `last_event_id` the stream sends the start of what has been pushed, whether an event
reaches it by the history, by the channel or by both. The argument needs the public forms of the
events to have ids of their own, since the stream skips a message by the id it would send.
-/
namespace Relayna.Status

open Contracts Python Storage Transition

variable {s : SSEStatusStream} {taskId : String} {t u : Streaming} {events : List Value}

/-- The publisher has this event in hand and has not pushed it. -/
def begun : Option (Value × SetHistory) → List Value
  | some (e, .setPending) | some (e, .push) => [e]
  | _ => []

theorem begun_afterChild (c : RedisStatusStore) (e : Value) :
    begun (some (e, SetHistory.afterChild c)) = [] := by
  unfold SetHistory.afterChild
  split <;> rfl

theorem begun_afterHistory (c : RedisStatusStore) (e : Value) :
    begun (some (e, SetHistory.afterHistory c e)) = [] := by
  unfold SetHistory.afterHistory
  split
  · rfl
  · exact begun_afterChild c e

/-- Nothing is deduplicated and nothing is trimmed. -/
structure Complete (events : List Value) (t : Streaming) : Prop where
  order : t.keys.pushed ++ begun t.call ++ t.todo = events
  full : t.keys.history = t.keys.pushed.reverse

/-- Where the stream is in the log. What it has sent and what it is about to replay is the start
of the log, and no message before the end of that is missing. -/
def InStep (t : Streaming) : Prop :=
  match t.stage with
  | .subscribe => t.sent = []
  | .readHistory => t.sent = [] ∧ t.position ≤ t.keys.channel.length
  | .replaying items =>
    t.sent ++ items <+: t.keys.pushed ∧ t.position ≤ (t.sent ++ items).length
  | .live => t.position ≤ t.sent.length
  | .ended => True

structure Delivering (s : SSEStatusStream) (t : Streaming) : Prop where
  frames : t.frames = t.sent.map s.frame
  ordered : t.sent <+: t.keys.pushed
  seen : ∀ id, id ∈ t.seen ↔ ∃ e ∈ t.sent, s.publicId e = some id
  going : t.stage ≠ .ended → ∀ e ∈ t.sent, s.showsTerminal e = some false
  earlier : ∀ e ∈ t.sent.dropLast, s.showsTerminal e = some false
  inStep : InStep t

theorem Delivering.initial : Delivering s (.init events) := by
  constructor <;> simp [Streaming.init, InStep]

/-- The next event of the log is sent, from the history or from the channel. -/
theorem Delivering.emit (h : Delivering s t) (running : t.stage ≠ .ended) {item : Value}
    {next : Stage} (position : Nat) (log : t.sent ++ [item] <+: t.keys.pushed)
    (inStep : InStep { t with position, sent := t.sent ++ [item], stage := next }) :
    Delivering s ({ t with position }.emit s item next) := by
  have quiet := h.going running
  constructor
  · simp [Streaming.emit, h.frames]
  · exact log
  · intro id
    simp only [Streaming.emit, List.mem_append, Option.mem_toList, h.seen id, List.mem_singleton]
    constructor
    · rintro (hid | ⟨e, he, hid⟩)
      · exact ⟨item, Or.inr rfl, hid⟩
      · exact ⟨e, Or.inl he, hid⟩
    · rintro ⟨e, he | rfl, hid⟩
      · exact Or.inr ⟨e, he, hid⟩
      · exact Or.inl hid
  · intro going e he
    simp only [Streaming.emit] at going he
    rcases List.mem_append.mp he with he | he
    · exact quiet e he
    · rw [List.mem_singleton.mp he]
      by_contra shown
      exact going (if_neg shown)
  · intro e he
    simp only [Streaming.emit, List.dropLast_concat] at he
    exact quiet e he
  · by_cases shown : s.showsTerminal item = some false
    · simp only [Streaming.emit, if_pos shown]
      exact inStep
    · simp [Streaming.emit, shown, InStep]

theorem Delivering.publish (h : Delivering s t) (frame : Published t u) : Delivering s u := by
  constructor
  · rw [frame.frames, frame.sent]
    exact h.frames
  · rw [frame.sent]
    exact h.ordered.trans frame.pushed
  · rw [frame.seen, frame.sent]
    exact h.seen
  · rw [frame.stage, frame.sent]
    exact h.going
  · rw [frame.sent]
    exact h.earlier
  · have hi := h.inStep
    unfold InStep at hi ⊢
    rw [frame.stage, frame.sent, frame.position]
    split at hi
    · exact hi
    · exact ⟨hi.1, hi.2.trans frame.channel.length_le⟩
    · exact ⟨hi.1.trans frame.pushed, hi.2⟩
    · exact hi
    · trivial

theorem getHistory_none_of_length_le {c : RedisStatusStore} {k : TaskKeys}
    (bound : (k.history.length : Int) ≤ c.historyMaxlen) : c.getHistory k none = k.history := by
  have stop : (0 : Int) ≤ max 0 (c.historyMaxlen - 1) := le_max_left _ _
  simp only [RedisStatusStore.getHistory, Option.getD_none, lrange_zero _ stop]
  exact List.take_of_length_le (by omega)

/-- The public form of an event keeps what the stream goes by: an id of its own, and whether its
status is terminal. -/
structure Faithful (s : SSEStatusStream) (events : List Value) : Prop where
  identified : ∀ e ∈ events, (s.publicId e).isSome
  distinct : (events.map s.publicId).Nodup
  terminal : ∀ e ∈ events, s.showsTerminal e = s.hasTerminal e

theorem Complete.pushed_isPrefix (h : Complete events t) : t.keys.pushed <+: events := by
  rw [← h.order, List.append_assoc]
  exact List.prefix_append _ _

theorem Faithful.of_isPrefix (h : Faithful s events) {log : List Value} (hl : log <+: events) :
    Faithful s log :=
  ⟨fun e he => h.identified e (hl.subset he),
    h.distinct.sublist (hl.sublist.map _), fun e he => h.terminal e (hl.subset he)⟩

theorem concat_isPrefix {α : Type} {l m : List α} {a : α} (h : l <+: m)
    (ha : m[l.length]? = some a) : l ++ [a] <+: m := by
  obtain ⟨rest, rfl⟩ := h
  cases rest with
  | nil => simp at ha
  | cons b rest =>
    simp only [List.getElem?_append_right le_rfl, Nat.sub_self, List.getElem?_cons_zero,
      Option.some.injEq] at ha
    exact ⟨rest, by simp [ha]⟩

/-- A message from before the end of what has been sent was sent. -/
theorem Delivering.mem_sent (h : Delivering s t) {item : Value} {i : Nat}
    (log : t.keys.pushed[i]? = some item) (hl : i < t.sent.length) : item ∈ t.sent := by
  have sent : t.sent[i]? = some t.sent[i] := List.getElem?_eq_getElem hl
  have same := (getElem?_of_isPrefix h.ordered sent).symm.trans log
  exact Option.some.inj same ▸ List.getElem_mem hl

theorem Delivering.live (h : Delivering s t) (faithful : Faithful s t.keys.pushed)
    (channel : t.keys.channel <+: t.keys.pushed) (hlive : t.stage = .live) {item : Value}
    (hi : t.keys.channel[t.position]? = some item) :
    Delivering s ({ t with position := t.position + 1 }.receive s item) := by
  have log := getElem?_of_isPrefix channel hi
  have behind : t.position ≤ t.sent.length := by simpa [InStep, hlive] using h.inStep
  obtain ⟨id, hid, seen, skipped⟩ | ⟨unseen, sends⟩ :=
    Streaming.receive_cases s { t with position := t.position + 1 } item
  · -- A message that is skipped is no new event: its id would occur twice in the log.
    rw [skipped]
    refine ⟨h.frames, h.ordered, h.seen, h.going, h.earlier, ?_⟩
    have old : t.position ≠ t.sent.length := by
      intro new
      obtain ⟨e, he, same⟩ := (h.seen id).mp seen
      have next := concat_isPrefix h.ordered (new ▸ log)
      have nodup := (faithful.of_isPrefix next).distinct
      rw [List.map_append, List.nodup_append] at nodup
      exact nodup.2.2 _ (List.mem_map_of_mem he) _ (by simp) (same.trans hid.symm)
    simp only [InStep, hlive]
    omega
  · rw [sends]
    have new : ¬t.position < t.sent.length := by
      intro old
      have identified := faithful.identified item (List.mem_of_getElem? log)
      obtain ⟨id, hid⟩ := Option.isSome_iff_exists.mp identified
      exact unseen id hid ((h.seen id).mpr ⟨item, h.mem_sent log old, hid⟩)
    have atEnd : t.position = t.sent.length := by omega
    have next := concat_isPrefix h.ordered (atEnd ▸ log)
    refine h.emit (by simp [hlive]) (t.position + 1) next ?_
    simp [InStep, atEnd]

theorem Delivering.advance (h : Delivering s t) (faithful : Faithful s t.keys.pushed)
    (channel : t.keys.channel <+: t.keys.pushed)
    (history : s.store.getHistory t.keys none = t.keys.pushed.reverse)
    (hs : t.advance s none = some u) : Delivering s u := by
  have hi := h.inStep
  unfold InStep at hi
  unfold Streaming.advance at hs
  cases hstage : t.stage with
  | subscribe =>
    simp only [hstage, Option.some.injEq] at hs hi
    subst hs
    exact ⟨h.frames, h.ordered, h.seen, fun _ => h.going (by simp [hstage]), h.earlier, hi, le_rfl⟩
  | readHistory =>
    simp only [hstage, Option.some.injEq] at hs hi
    subst hs
    refine ⟨h.frames, h.ordered, h.seen, fun _ => h.going (by simp [hstage]), h.earlier, ?_⟩
    simp only [InStep, history, replayAfter, List.reverse_reverse, hi.1, List.nil_append]
    exact ⟨List.prefix_refl _, hi.2.trans channel.length_le⟩
  | replaying items =>
    cases items with
    | nil =>
      simp only [hstage, Option.some.injEq, List.append_nil] at hs hi
      subst hs
      exact ⟨h.frames, h.ordered, h.seen, fun _ => h.going (by simp [hstage]), h.earlier, hi.2⟩
    | cons item rest =>
      simp only [hstage, Option.some.injEq] at hs hi
      subst hs
      have log : t.sent ++ [item] <+: t.keys.pushed :=
        (List.prefix_append (t.sent ++ [item]) rest).trans (by simpa using hi.1)
      refine h.emit (by simp [hstage]) t.position log ?_
      simpa [InStep] using hi
  | live =>
    simp only [hstage, Option.map_eq_some_iff] at hs
    obtain ⟨item, hitem, rfl⟩ := hs
    exact hstage ▸ h.live faithful channel hstage hitem
  | ended => simp [hstage] at hs

/-- The publisher pushes every event, in order, and the history keeps them all. -/
theorem Complete.publish (h : Complete events t) (seq : Sequential s.store taskId t.keys t.call)
    (distinct : (events.map (s.store.eventKey taskId)).Nodup)
    (bound : (events.length : Int) ≤ s.store.historyMaxlen)
    (hs : t.publish s.store taskId = some u) : Complete events u := by
  obtain ⟨e, rest, hc, ht, rfl⟩ | ⟨e, p, hc, rfl⟩ := Streaming.publish_cases hs
  · exact ⟨by simpa [hc, ht, begun] using h.order, h.full⟩
  · have order := h.order
    rw [hc] at order seq
    cases p with
    | setPending =>
      have known : s.store.eventKey taskId e ∉ t.keys.pushed.map (s.store.eventKey taskId) := by
        intro known
        rw [← order, List.map_append, List.map_append, List.nodup_append,
          List.nodup_append] at distinct
        exact distinct.1.2.2 _ known _ (by simp [begun]) rfl
      have absent : t.keys.markers (s.store.eventKey taskId e) = none := by
        rw [seq.keys.1]
        simp only [markersOf, if_neg known]
      simp only [SetHistory.await, absent]
      exact ⟨order, h.full⟩
    | getMarker =>
      obtain ⟨hm, -, known⟩ := seq.keys
      have complete : t.keys.markers (s.store.eventKey taskId e) = some .complete := by
        simp only [hm, markersOf, if_pos known]
      simp only [SetHistory.await, complete]
      exact ⟨order, h.full⟩
    | push =>
      have length : t.keys.history.length + 1 ≤ events.length := by
        rw [← order, h.full]
        simp only [begun, List.length_append, List.length_reverse, List.length_singleton]
        omega
      have kept : ltrim (e :: t.keys.history) 0 (s.store.historyMaxlen - 1) =
          e :: t.keys.history := by
        rw [ltrim, lrange_zero _ (by omega)]
        exact List.take_of_length_le (by simp only [List.length_cons]; omega)
      simp only [SetHistory.await, kept, afterAwait_of_ne afterHistory_ne_returned]
      exact ⟨by rw [begun_afterHistory]; simpa [begun] using order, by simp [h.full]⟩
    | addChild =>
      simp only [SetHistory.await, afterAwait_of_ne afterChild_ne_returned]
      exact ⟨by rw [begun_afterChild]; simpa [begun] using order, h.full⟩
    | addStatusEvent | publish | setComplete => exact ⟨order, h.full⟩
    | deleteMarker | raised | returned => exact seq.keys.elim

theorem eventKeys_nodup (c : RedisStatusStore) (taskId : String)
    (identified : ∀ e ∈ events, (eventId (entries e)).isSome)
    (distinct : (events.map fun e => eventId (entries e)).Nodup) :
    (events.map (c.eventKey taskId)).Nodup := by
  rw [List.nodup_map_iff_inj_on (List.Nodup.of_map _ distinct)]
  intro e he f hf same
  obtain ⟨id, hid⟩ := Option.isSome_iff_exists.mp (identified e he)
  obtain ⟨id', hid'⟩ := Option.isSome_iff_exists.mp (identified f hf)
  have tokens := (c.eventKey_eq_iff taskId e f).mp same
  rw [eventToken_of_eventId c hid, eventToken_of_eventId c hid'] at tokens
  exact List.inj_on_of_nodup_map distinct he hf (by rw [hid, hid', tokens])

/-- The frames are those of the first events in push order, none twice and none left out; the
stream ends with the first terminal one, and in its live loop it has sent what it was given. -/
structure Delivered (s : SSEStatusStream) (events : List Value) (t : Streaming) : Prop where
  frames : t.frames = t.sent.map s.frame
  ordered : t.sent <+: t.keys.pushed ∧ t.keys.pushed <+: events
  once : t.sent.Nodup
  ends : ∀ before e after, t.sent = before ++ e :: after → s.hasTerminal e = some true →
    after = [] ∧ t.stage = .ended
  caughtUp : t.stage = .live → t.keys.channel.length ≤ t.position → t.call = none →
    t.sent = t.keys.pushed

structure FreshInv (s : SSEStatusStream) (taskId : String) (events : List Value) (t : Streaming) :
    Prop where
  publisher : Sequential s.store taskId t.keys t.call
  complete : Complete events t
  delivering : Delivering s t

theorem FreshInv.next {l : StreamStep} (h : FreshInv s taskId events t)
    (faithful : Faithful s events) (distinct : (events.map (s.store.eventKey taskId)).Nodup)
    (bound : (events.length : Int) ≤ s.store.historyMaxlen)
    (hs : (streaming s taskId none).next t l = some u) : FreshInv s taskId events u := by
  obtain ⟨publisher, complete, delivering⟩ := h
  cases l with
  | publisher =>
    exact ⟨publisher.publish hs, complete.publish publisher distinct bound hs,
      delivering.publish (Streaming.publish_frame hs)⟩
  | stream =>
    have log := complete.pushed_isPrefix
    have history : s.store.getHistory t.keys none = t.keys.pushed.reverse := by
      rw [← complete.full]
      refine getHistory_none_of_length_le (le_trans ?_ bound)
      rw [complete.full, List.length_reverse]
      exact_mod_cast log.length_le
    have delivering := delivering.advance (faithful.of_isPrefix log) publisher.channel_isPrefix
      history hs
    obtain ⟨hk, hc, ht⟩ := Streaming.advance_frame hs
    refine ⟨?_, ⟨?_, ?_⟩, delivering⟩
    · rw [hk, hc]
      exact publisher
    · rw [hk, hc, ht]
      exact complete.order
    · rw [hk]
      exact complete.full
  | keepalive =>
    have same : u = t := by
      simp only [streaming] at hs
      split at hs
      · exact (Option.some.inj hs).symm
      · cases hs
    exact same ▸ ⟨publisher, complete, delivering⟩
  | stop =>
    obtain rfl := Option.some.inj hs
    refine ⟨publisher, ⟨complete.order, complete.full⟩, ?_⟩
    exact ⟨delivering.frames, delivering.ordered, delivering.seen, by simp, delivering.earlier,
      trivial⟩

theorem FreshInv.delivered (h : FreshInv s taskId events t) (faithful : Faithful s events) :
    Delivered s events t := by
  obtain ⟨publisher, complete, delivering⟩ := h
  have log := delivering.ordered.trans complete.pushed_isPrefix
  refine ⟨delivering.frames, ⟨delivering.ordered, complete.pushed_isPrefix⟩, ?_, ?_, ?_⟩
  · exact List.Nodup.of_map _ (faithful.of_isPrefix log).distinct
  · intro before e after hsent terminal
    have shown : s.showsTerminal e = some true := by
      rw [faithful.terminal e (log.subset (by simp [hsent])), terminal]
    have last : after = [] := by
      by_contra more
      have mem : e ∈ t.sent.dropLast := by
        rw [hsent, List.dropLast_append_of_ne_nil (by simp)]
        simp [List.dropLast_cons_of_ne_nil more]
      have := delivering.earlier e mem
      simp [shown] at this
    refine ⟨last, ?_⟩
    by_contra going
    have := delivering.going going e (by simp [hsent])
    simp [shown] at this
  · intro live drained idle
    have keys := publisher.keys
    rw [idle] at keys
    have behind : t.position ≤ t.sent.length := by simpa [InStep, live] using delivering.inStep
    refine delivering.ordered.eq_of_length_le ?_
    rw [keys.2]
    omega

/-- While every public form is faithful, a stream that starts afresh sends the events of the task
in push order, whatever the interleaving with the publisher. -/
theorem fresh_stream_delivers (s : SSEStatusStream) (taskId : String) (events : List Value)
    (identified : ∀ e ∈ events, (eventId (entries e)).isSome)
    (distinct : (events.map fun e => eventId (entries e)).Nodup)
    (bound : (events.length : Int) ≤ s.store.historyMaxlen) (faithful : Faithful s events)
    (ls : List StreamStep) (t : Streaming)
    (run : (streaming s taskId none).exec (.init events) ls = some t) :
    Delivered s events t := by
  have keys := eventKeys_nodup s.store taskId identified distinct
  have start : FreshInv s taskId events (.init events) :=
    ⟨.initial, ⟨by simp [Streaming.init, TaskKeys.init, begun], rfl⟩, .initial⟩
  have inv : FreshInv s taskId events t :=
    Machine.invariant (fun _ _ _ h hs => h.next faithful keys bound hs) start run
  exact inv.delivered faithful

/-- A stream with the default terminal statuses. -/
def plainStream (aliasConfig : Option ContractAliasConfig) : SSEStatusStream where
  store :=
    { text := plainText
      keyPrefix := "task"
      historyMaxlen := 50
      serviceEventStore := false }
  lower := fun s => String.ofList (s.toList.map Char.toLower)
  terminalStatuses := ["completed", "failed"]
  outputAdapter := id
  aliasConfig := aliasConfig

def statusOf (eventId status : String) : Value :=
  .dict [("event_id", .str eventId), ("status", .str status)]

def twoEvents : List Value := [statusOf "1" "processing", statusOf "2" "completed"]

/-- The first event is pushed, the stream subscribes and replays it, and only then is it
published. -/
def pushedBeforePublished : List StreamStep :=
  [.publisher, .publisher, .publisher, .stream, .stream, .stream, .publisher, .stream, .stream,
    .publisher, .publisher, .publisher, .publisher, .publisher, .stream]

theorem fresh_stream_delivers_pushed_before_published :
    ∃ t, (streaming (plainStream none) "t" none).exec (.init twoEvents) pushedBeforePublished =
          some t ∧
      t.sent = twoEvents ∧ Delivered (plainStream none) twoEvents t := by
  refine ⟨_, rfl, rfl, ?_⟩
  refine fresh_stream_delivers (plainStream none) "t" twoEvents ?_ ?_ (by decide) ?_
    pushedBeforePublished _ rfl
  · decide
  · decide
  · exact ⟨by decide, by decide, by decide⟩

/-- With the status under another name in the public form, a completed task does not end its
stream. -/
theorem terminal_event_does_not_end_stream :
    ¬∀ (s : SSEStatusStream) (taskId : String) (events : List Value),
      (∀ e ∈ events, (eventId (entries e)).isSome) →
        (events.map fun e => eventId (entries e)).Nodup →
          (events.length : Int) ≤ s.store.historyMaxlen → ∀ ls t,
            (streaming s taskId none).exec (.init events) ls = some t → Delivered s events t := by
  intro h
  have delivered := h (plainStream (some ⟨[("status", "state")]⟩)) "t" [statusOf "1" "completed"]
    (by decide) (by decide) (by decide)
    [.publisher, .publisher, .publisher, .publisher, .publisher, .stream, .stream, .stream] _ rfl
  have ended := (delivered.ends [] (statusOf "1" "completed") [] rfl (by decide)).2
  cases ended

end Relayna.Status
