import Relayna.Status.StreamDelivery

/-!
# What a resumed stream delivers

With `last_event_id` only the events after it are replayed, and the ids that the stream remembers
and the terminal status it looks for are those of the replay. So it has to know the event it
resumes after as already published, and a terminal event has to come after it.
-/
namespace Relayna.Status

open Contracts Python Storage Transition

variable {s : SSEStatusStream} {taskId last : String} {t u : Streaming} {events : List Value}

/-- The history that the stream reads, oldest first. -/
def historyItems (s : SSEStatusStream) (t : Streaming) : List Value :=
  (s.store.getHistory t.keys none).reverse

/-- The event to resume after is in the history that the stream reads. -/
def Occurs (s : SSEStatusStream) (last : String) (t : Streaming) (l : StreamStep) : Prop :=
  match l, t.stage with
  | .stream, .readHistory => ∃ e ∈ historyItems s t, eventId (entries e) = some last
  | _, _ => True

/-- The event to resume after has been published before the stream subscribes, and if a terminal
event is read, one that shows as terminal is replayed. -/
def Resumable (s : SSEStatusStream) (last : String) (t : Streaming) (l : StreamStep) : Prop :=
  match l, t.stage with
  | .stream, .subscribe => ∃ e ∈ t.keys.channel, eventId (entries e) = some last
  | .stream, .readHistory =>
    (∃ e ∈ historyItems s t, s.hasTerminal e = some true) →
      ∃ e ∈ replayAfter (some last) (historyItems s t), s.showsTerminal e = some true
  | _, _ => True

instance (s : SSEStatusStream) (last : String) (t : Streaming) (l : StreamStep) :
    Decidable (Occurs s last t l) := by
  unfold Occurs
  split <;> infer_instance

instance (s : SSEStatusStream) (last : String) (t : Streaming) (l : StreamStep) :
    Decidable (Resumable s last t l) := by
  unfold Resumable
  split <;> infer_instance

/-- Neither the event resumed after nor an earlier one is sent, and a stream that has read a
terminal event does not come to its live loop: what is left to replay ends it. -/
structure Resumed (s : SSEStatusStream) (taskId last : String) (t : Streaming) : Prop where
  later : ∀ before item after, t.keys.pushed = before ++ item :: after →
    eventId (entries item) = some last → ∀ e ∈ t.sent, e ≠ item ∧ e ∉ before
  ends : ∀ items, t.read = some items → (∃ e ∈ items, s.hasTerminal e = some true) →
    t.stage ≠ .live ∧ ∀ rest, t.stage = .replaying rest →
      ∃ n ≤ rest.length, ∃ u,
        (streaming s taskId (some last)).exec t (List.replicate n .stream) = some u ∧
          u.stage = .ended

/-- The log has the event resumed after below the position, and what has been sent and is yet to
be replayed above it. -/
def Past (last : String) (t : Streaming) (items : List Value) : Prop :=
  ∃ before item after, t.keys.pushed = before ++ item :: after ∧
    eventId (entries item) = some last ∧ before.length < t.position ∧
      ∀ e ∈ t.sent ++ items, e ∈ after

def ResumeAt (s : SSEStatusStream) (last : String) (t : Streaming) : Prop :=
  match t.stage with
  | .subscribe => t.sent = [] ∧ t.read = none
  | .readHistory => t.sent = [] ∧ t.read = none ∧ Past last t []
  | .replaying items =>
    Past last t items ∧ ∀ read, t.read = some read → (∃ e ∈ read, s.hasTerminal e = some true) →
      ∃ e ∈ items, s.showsTerminal e = some true
  | .live =>
    Past last t [] ∧ ∀ read, t.read = some read → ¬∃ e ∈ read, s.hasTerminal e = some true
  | .ended => t.sent = [] ∨ Past last t []

/-- In a log without repetitions there is one way to split it at a given event. -/
theorem split_unique {α β : Type} {f : α → β} {l a b a' b' : List α} {x x' : α}
    (nodup : (l.map f).Nodup) (h : l = a ++ x :: b) (h' : l = a' ++ x' :: b') (same : f x = f x') :
    a = a' ∧ x = x' ∧ b = b' := by
  have first : (l.map f)[a.length]? = some (f x) := by simp [h]
  have second : (l.map f)[a'.length]? = some (f x') := by simp [h']
  have hl : a.length < (l.map f).length := by simp [h]
  have index : a.length = a'.length :=
    (List.getElem?_inj hl nodup).mp (by rw [first, second, same])
  obtain ⟨rfl, rest⟩ := List.append_inj (h.symm.trans h') index
  exact ⟨rfl, List.cons.inj rest⟩

theorem Past.publish {items : List Value} (h : Past last t items) (frame : Published t u) :
    Past last u items := by
  obtain ⟨before, item, after, pushed, hid, below, mem⟩ := h
  obtain ⟨more, grown⟩ := frame.pushed
  refine ⟨before, item, after ++ more, ?_, hid, frame.position ▸ below, ?_⟩
  · rw [← grown, pushed]
    simp
  · rw [frame.sent]
    exact fun e he => List.mem_append_left _ (mem e he)

theorem ResumeAt.publish (h : ResumeAt s last t) (frame : Published t u) : ResumeAt s last u := by
  unfold ResumeAt at h ⊢
  rw [frame.stage, frame.sent, frame.read]
  split at h
  · exact h
  · exact ⟨h.1, h.2.1, h.2.2.publish frame⟩
  · exact ⟨h.1.publish frame, h.2⟩
  · exact ⟨h.1.publish frame, h.2⟩
  · exact h.imp_right fun past => past.publish frame

theorem historyItems_isSuffix (h : Sequential s.store taskId t.keys t.call) :
    historyItems s t <:+ t.keys.pushed := by
  have stop : (0 : Int) ≤ max 0 (s.store.historyMaxlen - 1) := le_max_left _ _
  have read : s.store.getHistory t.keys none <+: t.keys.pushed.reverse := by
    simp only [RedisStatusStore.getHistory, Option.getD_none, lrange_zero _ stop]
    exact (List.take_prefix _ _).trans h.recent
  simpa [historyItems] using List.reverse_suffix.mpr read

/-- The replay is what the log has after the event. -/
theorem mem_after_of_mem_replayAfter {before after items : List Value} {item e : Value}
    (nodup : (t.keys.pushed.map (s.store.eventKey taskId)).Nodup)
    (pushed : t.keys.pushed = before ++ item :: after) (hid : eventId (entries item) = some last)
    (suffix : items <:+ t.keys.pushed) (occurs : ∃ e ∈ items, eventId (entries e) = some last)
    (he : e ∈ replayAfter (some last) items) : e ∈ after := by
  obtain ⟨skipped, log⟩ := suffix
  cases hidx : items.findIdx? fun item => eventId (entries item) == some last with
  | none =>
    obtain ⟨f, hf, hl⟩ := occurs
    have := List.findIdx?_eq_none_iff.mp hidx f hf
    simp [hl] at this
  | some i =>
    obtain ⟨hi, found, -⟩ := List.findIdx?_eq_some_iff_getElem.mp hidx
    have split : t.keys.pushed = (skipped ++ items.take i) ++ items[i] :: items.drop (i + 1) := by
      rw [← log, List.append_assoc, List.cons_getElem_drop_succ, List.take_append_drop]
    have same : s.store.eventKey taskId item = s.store.eventKey taskId items[i] := by
      have token := eventToken_of_eventId s.store hid
      have token' := eventToken_of_eventId s.store (beq_iff_eq.mp found)
      exact (s.store.eventKey_eq_iff taskId _ _).mpr (token.trans token'.symm)
    obtain ⟨-, -, rfl⟩ := split_unique nodup pushed split same
    simpa [replayAfter, hidx] using he

theorem ResumeAt.emit {item : Value} {rest : List Value} {next : Stage} {position : Nat}
    (past : Past last t (item :: rest)) (below : t.position ≤ position)
    (more : s.showsTerminal item = some false →
      ResumeAt s last { t with position, sent := t.sent ++ [item], stage := next }) :
    ResumeAt s last ({ t with position }.emit s item next) := by
  obtain ⟨before, e, after, pushed, hid, hb, mem⟩ := past
  by_cases shown : s.showsTerminal item = some false
  · simp only [Streaming.emit, if_pos shown]
    exact more shown
  · simp only [Streaming.emit, if_neg shown]
    refine Or.inr ⟨before, e, after, pushed, hid, hb.trans_le below, fun f hf => mem f ?_⟩
    simp only [List.append_nil, List.mem_append, List.mem_singleton] at hf
    simp only [List.mem_append, List.mem_cons]
    exact hf.imp_right Or.inl

theorem ResumeAt.live (h : ResumeAt s last t) (hlive : t.stage = .live)
    (channel : t.keys.channel <+: t.keys.pushed) {item : Value}
    (hi : t.keys.channel[t.position]? = some item) :
    ResumeAt s last ({ t with position := t.position + 1 }.receive s item) := by
  simp only [ResumeAt, hlive] at h
  obtain ⟨⟨before, e, after, pushed, hid, below, mem⟩, quiet⟩ := h
  have above : before.length < t.position + 1 := Nat.lt_succ_of_lt below
  have new : item ∈ after := by
    have log := getElem?_of_isPrefix channel hi
    rw [pushed, List.getElem?_append_right below.le, List.getElem?_cons] at log
    rw [if_neg (by omega)] at log
    exact List.mem_of_getElem? log
  have grown : ∀ f ∈ t.sent ++ [item], f ∈ after := by
    intro f hf
    rcases List.mem_append.mp hf with hf | hf
    · exact mem f (by simpa using hf)
    · exact List.mem_singleton.mp hf ▸ new
  obtain ⟨-, -, -, skipped⟩ | ⟨-, sends⟩ :=
    Streaming.receive_cases s { t with position := t.position + 1 } item
  · rw [skipped]
    simp only [ResumeAt, hlive]
    exact ⟨⟨before, e, after, pushed, hid, above, mem⟩, quiet⟩
  · rw [sends]
    refine ResumeAt.emit ⟨before, e, after, pushed, hid, below, grown⟩ (Nat.le_succ _) fun _ => ?_
    simp only [ResumeAt]
    refine ⟨⟨before, e, after, pushed, hid, above, ?_⟩, quiet⟩
    rw [List.append_nil]
    exact grown

theorem ResumeAt.advance (h : ResumeAt s last t)
    (publisher : Sequential s.store taskId t.keys t.call) (occurs : Occurs s last t .stream)
    (resumable : Resumable s last t .stream) (hs : t.advance s (some last) = some u) :
    ResumeAt s last u := by
  unfold Streaming.advance at hs
  cases hstage : t.stage with
  | subscribe =>
    simp only [hstage, Option.some.injEq] at hs
    simp only [ResumeAt, hstage] at h
    simp only [Resumable, hstage] at resumable
    subst hs
    obtain ⟨e, he, hid⟩ := resumable
    obtain ⟨before, after, hc⟩ := List.append_of_mem he
    obtain ⟨more, pushed⟩ := publisher.channel_isPrefix
    refine ⟨h.1, h.2, before, e, after ++ more, ?_, hid, ?_, ?_⟩
    · rw [← pushed, hc]
      simp
    · simp [hc]
    · simp [h.1]
  | readHistory =>
    simp only [hstage, Option.some.injEq] at hs
    simp only [ResumeAt, hstage] at h
    simp only [Resumable, hstage] at resumable
    simp only [Occurs, hstage] at occurs
    subst hs
    obtain ⟨none, -, before, e, after, pushed, hid, below, -⟩ := h
    refine ⟨⟨before, e, after, pushed, hid, below, fun f hf => ?_⟩, fun read hr => ?_⟩
    · simp only [none, List.nil_append] at hf
      exact mem_after_of_mem_replayAfter publisher.once pushed hid
        (historyItems_isSuffix publisher) occurs hf
    · exact Option.some.inj hr ▸ resumable
  | replaying items =>
    simp only [ResumeAt, hstage] at h
    cases items with
    | nil =>
      simp only [hstage, Option.some.injEq] at hs
      subst hs
      refine ⟨h.1, fun read hr terminal => ?_⟩
      obtain ⟨e, he, -⟩ := h.2 read hr terminal
      simp at he
    | cons item rest =>
      simp only [hstage, Option.some.injEq] at hs
      subst hs
      refine ResumeAt.emit h.1 le_rfl fun quiet => ?_
      simp only [ResumeAt]
      refine ⟨?_, fun read hr terminal => ?_⟩
      · obtain ⟨before, e, after, pushed, hid, below, mem⟩ := h.1
        exact ⟨before, e, after, pushed, hid, below, by simpa using mem⟩
      · obtain ⟨e, he, shown⟩ := h.2 read hr terminal
        rcases List.mem_cons.mp he with rfl | he
        · simp [quiet] at shown
        · exact ⟨e, he, shown⟩
  | live =>
    simp only [hstage, Option.map_eq_some_iff] at hs
    obtain ⟨item, hitem, rfl⟩ := hs
    exact hstage ▸ h.live hstage publisher.channel_isPrefix hitem
  | ended => simp [hstage] at hs

structure ResumeInv (s : SSEStatusStream) (taskId last : String) (t : Streaming) : Prop where
  publisher : Sequential s.store taskId t.keys t.call
  place : ResumeAt s last t

theorem ResumeInv.next {l : StreamStep} (h : ResumeInv s taskId last t)
    (ok : Occurs s last t l ∧ Resumable s last t l)
    (hs : (streaming s taskId (some last)).next t l = some u) : ResumeInv s taskId last u := by
  obtain ⟨publisher, place⟩ := h
  cases l with
  | publisher => exact ⟨publisher.publish hs, place.publish (Streaming.publish_frame hs)⟩
  | stream =>
    obtain ⟨hk, hc, -⟩ := Streaming.advance_frame hs
    refine ⟨?_, place.advance publisher ok.1 ok.2 hs⟩
    rw [hk, hc]
    exact publisher
  | keepalive =>
    have same : u = t := by
      simp only [streaming] at hs
      split at hs
      · exact (Option.some.inj hs).symm
      · cases hs
    exact same ▸ ⟨publisher, place⟩
  | stop =>
    obtain rfl := Option.some.inj hs
    refine ⟨publisher, ?_⟩
    unfold ResumeAt at place ⊢
    split at place
    · exact Or.inl place.1
    · exact Or.inl place.1
    · obtain ⟨⟨before, e, after, pushed, hid, below, mem⟩, -⟩ := place
      refine Or.inr ⟨before, e, after, pushed, hid, below, fun f hf => mem f ?_⟩
      exact List.mem_append_left _ (by simpa using hf)
    · exact Or.inr place.1
    · exact place

/-- A replay with a terminal event in it comes to an end. -/
theorem replay_ends (rest : List Value) (hstage : t.stage = .replaying rest)
    (shown : ∃ e ∈ rest, s.showsTerminal e = some true) :
    ∃ n ≤ rest.length, ∃ u,
      (streaming s taskId (some last)).exec t (List.replicate n .stream) = some u ∧
        u.stage = .ended := by
  induction rest generalizing t with
  | nil => simp at shown
  | cons item rest ih =>
    have step : (streaming s taskId (some last)).next t .stream =
        some (t.emit s item (.replaying rest)) := by
      simp only [streaming, Streaming.advance, hstage]
    by_cases quiet : s.showsTerminal item = some false
    · have later : ∃ e ∈ rest, s.showsTerminal e = some true := by
        obtain ⟨e, he, hes⟩ := shown
        rcases List.mem_cons.mp he with rfl | he
        · simp [quiet] at hes
        · exact ⟨e, he, hes⟩
      have next : (t.emit s item (.replaying rest)).stage = .replaying rest := if_pos quiet
      obtain ⟨n, hn, u, run, ended⟩ := ih next later
      refine ⟨n + 1, by simpa using hn, u, ?_, ended⟩
      rw [List.replicate_succ, Machine.exec_cons, step]
      exact run
    · refine ⟨1, by simp, t.emit s item (.replaying rest), ?_, if_neg quiet⟩
      rw [List.replicate_one, Machine.exec_cons, step]
      rfl

theorem ResumeInv.resumed (h : ResumeInv s taskId last t) : Resumed s taskId last t := by
  obtain ⟨publisher, place⟩ := h
  have nodup := publisher.once
  constructor
  · intro before item after pushed hid e he
    have past : ∃ items, Past last t items := by
      unfold ResumeAt at place
      split at place
      · simp [place.1] at he
      · simp [place.1] at he
      · exact ⟨_, place.1⟩
      · exact ⟨_, place.1⟩
      · rcases place with none | past
        · simp [none] at he
        · exact ⟨_, past⟩
    obtain ⟨items, before', item', after', pushed', hid', -, mem⟩ := past
    have same : s.store.eventKey taskId item = s.store.eventKey taskId item' := by
      have token := eventToken_of_eventId s.store hid
      have token' := eventToken_of_eventId s.store hid'
      exact (s.store.eventKey_eq_iff taskId _ _).mpr (token.trans token'.symm)
    obtain ⟨rfl, rfl, rfl⟩ := split_unique nodup pushed pushed' same
    have later : e ∈ after := mem e (List.mem_append_left _ he)
    have distinct := List.Nodup.of_map _ nodup
    rw [pushed, List.nodup_append] at distinct
    refine ⟨fun heq => ?_, fun hb => distinct.2.2 e hb e (List.mem_cons_of_mem _ later) rfl⟩
    exact (List.nodup_cons.mp distinct.2.1).1 (heq ▸ later)
  · intro items hr terminal
    refine ⟨fun live => ?_, fun rest hrest => ?_⟩
    · simp only [ResumeAt, live] at place
      exact place.2 items hr terminal
    · simp only [ResumeAt, hrest] at place
      exact replay_ends rest hrest (place.2 items hr terminal)

/-- A stream that subscribes after its event has been published, and that has a terminal event
left to replay when it reads one, sends only later events and ends on the terminal one. -/
theorem resumed_stream_stays_past (s : SSEStatusStream) (taskId last : String)
    (events : List Value) (ls : List StreamStep) (t : Streaming)
    (occurs : (streaming s taskId (some last)).Along (Occurs s last) (.init events) ls)
    (resumable : (streaming s taskId (some last)).Along (Resumable s last) (.init events) ls)
    (run : (streaming s taskId (some last)).exec (.init events) ls = some t) :
    Resumed s taskId last t := by
  have start : ResumeInv s taskId last (.init events) := ⟨.initial, rfl, rfl⟩
  have both := occurs.and resumable
  exact (Machine.invariant_along (fun _ _ _ h ok hs => h.next ok hs) start both run).resumed

/-- Both events are out before the stream subscribes. -/
def resumedLate : List StreamStep :=
  List.replicate 10 .publisher ++ [.stream, .stream, .stream]

theorem resumed_stream_stays_past_of_late_start :
    ∃ t, (streaming (plainStream none) "t" (some "1")).exec (.init twoEvents) resumedLate =
          some t ∧
      t.sent = [statusOf "2" "completed"] ∧ Resumed (plainStream none) "t" "1" t := by
  refine ⟨_, rfl, rfl, ?_⟩
  exact resumed_stream_stays_past (plainStream none) "t" "1" twoEvents resumedLate _ (by decide)
    (by decide) rfl

/-- The event resumed after is sent again when it is published after the subscription; and a
stream that resumes after the terminal event goes on to wait. -/
theorem resumed_stream_repeats_and_waits :
    ¬(∀ ls t, (streaming (plainStream none) "t" (some "1")).Along (Occurs (plainStream none) "1")
        (.init [statusOf "1" "processing"]) ls →
      (streaming (plainStream none) "t" (some "1")).exec (.init [statusOf "1" "processing"]) ls =
        some t → Resumed (plainStream none) "t" "1" t) ∧
    ¬∀ ls t, (streaming (plainStream none) "t" (some "1")).Along (Occurs (plainStream none) "1")
        (.init [statusOf "1" "completed"]) ls →
      (streaming (plainStream none) "t" (some "1")).exec (.init [statusOf "1" "completed"]) ls =
        some t → Resumed (plainStream none) "t" "1" t := by
  constructor
  · intro h
    have resumed := h [.publisher, .publisher, .publisher, .stream, .stream, .stream, .publisher,
      .stream] _ (by decide) rfl
    have repeated := resumed.later [] (statusOf "1" "processing") [] rfl (by decide)
      (statusOf "1" "processing") (by exact List.mem_cons_self)
    exact repeated.1 rfl
  · intro h
    have resumed := h (List.replicate 5 .publisher ++ [.stream, .stream, .stream]) _ (by decide) rfl
    have waits := resumed.ends [statusOf "1" "completed"] rfl (by decide)
    exact waits.1 rfl

end Relayna.Status
