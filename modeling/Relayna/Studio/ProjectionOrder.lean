import Relayna.Studio.TaskProjection

/-!
# The projection and the order of the events

Both projections of a list of events show `replay`, a fold over the list. In every order of the
same events the latest event, the first and the last time are the same. Status and stage are what
was carried last.
-/
namespace Relayna.Studio.TaskProjection

open Python Contracts Events Observability Latest

/-- The fields of a projection that are compared. -/
structure Shown (τ : Type) where
  status : Option String
  stage : Option String
  latestEventType : Option String
  latestEventAt : Option τ
  firstSeenAt : Option τ
  lastSeenAt : Option τ

def StudioTaskSearchDocument.shown (d : StudioTaskSearchDocument) : Shown String :=
  ⟨d.status, d.stage, d.latestEventType, d.latestEventAt, d.firstSeenAt, d.lastSeenAt⟩

def TaskProjectionRow.shown (r : TaskProjectionRow) : Shown Int :=
  ⟨r.status, r.stage, r.latestEventType, r.latestEventAt, r.firstSeenAt, r.lastSeenAt⟩

/-- What is known of a task. -/
structure Summary where
  status : Option String
  stage : Option String
  latestEventType : String
  latestEventAt : Int
  firstSeenAt : Int
  lastSeenAt : Int

def Summary.shown {τ : Type} (write : Int → τ) (p : Summary) : Shown τ :=
  ⟨p.status, p.stage, some p.latestEventType, some (write p.latestEventAt),
    some (write p.firstSeenAt), some (write p.lastSeenAt)⟩

namespace Calendar

-- The order that computes, whatever other orders of the integers are imported.
local instance computedOrder : LinearOrder Int := Int.instLinearOrder

local instance computedPreorder : Preorder Int := computedOrder.toPreorder

variable (c : Calendar) (time : StudioControlPlaneEvent → Int)

/-- The newest and the oldest event, with a status and a stage. -/
def summaryWith (status stage : Option String) (es : List StudioControlPlaneEvent) :
    Option Summary :=
  (es.argmax time).bind fun newest => (es.argmin time).map fun oldest =>
    ⟨status, stage, newest.event.eventType, time newest, time oldest, time newest⟩

/-- What the events say of a task: status and stage are those of the latest event that carries
them. -/
def summary (es : List StudioControlPlaneEvent) : Option Summary :=
  summaryWith time (latestCarried time c.status es) (latestCarried time c.stage es) es

/-- One event more. -/
def absorb (p : Option Summary) (e : StudioControlPlaneEvent) : Summary :=
  match p with
  | none => ⟨c.status e, c.stage e, e.event.eventType, time e, time e, time e⟩
  | some p =>
    { status := (c.status e).or p.status
      stage := (c.stage e).or p.stage
      latestEventType := if p.latestEventAt ≤ time e then e.event.eventType else p.latestEventType
      latestEventAt := if p.latestEventAt ≤ time e then time e else p.latestEventAt
      firstSeenAt := min p.firstSeenAt (time e)
      lastSeenAt := max p.lastSeenAt (time e) }

def replay (es : List StudioControlPlaneEvent) : Option Summary :=
  es.foldl (fun p e => some (c.absorb time p e)) none

variable {c time} {es : List StudioControlPlaneEvent}

theorem replay_concat (es : List StudioControlPlaneEvent) (e : StudioControlPlaneEvent) :
    c.replay time (es ++ [e]) = some (c.absorb time (c.replay time es) e) := by
  rw [replay, List.foldl_append]
  rfl

theorem replay_eq (distinct : Distinct time es) : c.replay time es =
    summaryWith time (lastCarried c.status es) (lastCarried c.stage es) es := by
  induction es using List.reverseRecOn with
  | nil => rfl
  | append_singleton es e ih =>
    have prefixDistinct : Distinct time es :=
      distinct.sublist ((List.sublist_append_left es [e]).map _)
    rw [replay_concat, ih prefixDistinct, summaryWith, summaryWith, lastCarried_concat,
      lastCarried_concat, List.argmax_concat, List.argmin_concat]
    cases newest : es.argmax time with
    | none =>
      obtain rfl := List.argmax_eq_none.mp newest
      simp [absorb, lastCarried]
    | some m =>
      have hm := List.argmax_mem newest
      obtain ⟨n, oldest⟩ : ∃ n, es.argmin time = some n := by
        refine Option.ne_none_iff_exists'.mp fun none_ => ?_
        rw [List.argmin_eq_none.mp none_] at hm
        cases hm
      have ne : time m ≠ time e := by
        have split : (es.map time ++ [time e]).Nodup := by
          simpa [Distinct] using distinct
        exact (List.nodup_append.mp split).2.2 _ (List.mem_map_of_mem hm) _
          (List.mem_singleton_self _)
      simp only [oldest, Option.bind_some, Option.map_some, absorb]
      by_cases later : time m < time e
      · by_cases earlier : time e < time n
        · simp [later, later.le, earlier, earlier.le]
        · simp [later, later.le, earlier, not_lt.mp earlier]
      · have before : time e < time m := lt_of_le_of_ne (not_lt.mp later) ne.symm
        by_cases earlier : time e < time n
        · simp [later, before.le, before.not_ge, earlier, earlier.le]
        · simp [later, before.le, before.not_ge, earlier, not_lt.mp earlier]

/-- The times of the replay are times of the events. -/
theorem replay_times {p : Summary} (h : c.replay time es = some p) :
    p.latestEventAt ∈ es.map time ∧ p.firstSeenAt ∈ es.map time ∧ p.lastSeenAt ∈ es.map time := by
  induction es using List.reverseRecOn generalizing p with
  | nil => cases h
  | append_singleton es e ih =>
    rw [replay_concat] at h
    obtain rfl := Option.some.inj h
    rw [List.map_append, List.map_singleton]
    have here : time e ∈ es.map time ++ [time e] := by simp
    cases before : c.replay time es with
    | none => exact ⟨here, here, here⟩
    | some q =>
      obtain ⟨latest, first, last⟩ := ih before
      have old {t : Int} (ht : t ∈ es.map time) : t ∈ es.map time ++ [time e] :=
        List.mem_append_left _ ht
      refine ⟨?_, ?_, ?_⟩
      · simp only [absorb]
        split
        · exact here
        · exact old latest
      · rcases min_choice q.firstSeenAt (time e) with same | same
        · exact (congrArg (· ∈ _) same).mpr (old first)
        · exact (congrArg (· ∈ _) same).mpr here
      · rcases max_choice q.lastSeenAt (time e) with same | same
        · exact (congrArg (· ∈ _) same).mpr (old last)
        · exact (congrArg (· ∈ _) same).mpr here

/-! ## The projections show the replay -/

/-- The instant of an event in the search, and in the events table. -/
def localTime (c : Calendar) (e : StudioControlPlaneEvent) : Int :=
  (c.parseDatetime e.event.timestamp).getD 0

def utcTime (c : Calendar) (e : StudioControlPlaneEvent) : Int :=
  (c.parseTimestamp e.event.timestamp).getD 0

/-- The event has a timestamp that can be parsed. -/
def Valid (c : Calendar) (e : StudioControlPlaneEvent) : Prop :=
  ((e.event.timestamp.bind normalize).bind c.fromisoformat).isSome = true

instance (e : StudioControlPlaneEvent) : Decidable (c.Valid e) :=
  inferInstanceAs (Decidable (_ = true))

/-- The time of an event is read back from the text that `_isoformat` writes. -/
def ReadsBack (c : Calendar) (t : Int) : Prop := c.parseDatetime (some (c.isoformatZ t)) = some t

instance (t : Int) : Decidable (c.ReadsBack t) :=
  inferInstanceAs (Decidable (_ = some t))

theorem parseDatetime_eq {e : StudioControlPlaneEvent} (valid : c.Valid e) :
    c.parseDatetime e.event.timestamp = some (c.localTime e) := by
  obtain ⟨d, hd⟩ := Option.isSome_iff_exists.mp valid
  simp [localTime, parseDatetime, hd]

theorem parseTimestamp_eq {e : StudioControlPlaneEvent} (valid : c.Valid e) :
    c.parseTimestamp e.event.timestamp = some (c.utcTime e) := by
  obtain ⟨d, hd⟩ := Option.isSome_iff_exists.mp valid
  simp [utcTime, parseTimestamp, hd]

theorem timestamp_ne {e : StudioControlPlaneEvent} (valid : c.Valid e) (other : Option String) :
    orElse e.event.timestamp other = e.event.timestamp := by
  unfold Valid at valid
  cases stamp : e.event.timestamp with
  | none =>
    rw [stamp] at valid
    cases valid
  | some ts =>
    have present : ts ≠ "" := by
      rintro rfl
      rw [stamp] at valid
      have blank : normalize "" = none := by decide
      rw [Option.bind_some, blank] at valid
      cases valid
    simp [orElse, present]

variable {taskIndexTtlSeconds ttlSeconds : Int} {service : ServiceRecord}
  {serviceName environment : String} {now : StudioControlPlaneEvent → Int}

theorem upsertTaskDocument_shown {e : StudioControlPlaneEvent} (valid : c.Valid e)
    {doc : Option StudioTaskSearchDocument} {p : Option Summary} {t : Int}
    (reads : ∀ q, p = some q → c.ReadsBack q.latestEventAt ∧ c.ReadsBack q.firstSeenAt ∧
      c.ReadsBack q.lastSeenAt)
    (shows : doc.map (·.shown) = p.map (·.shown c.isoformatZ)) :
    (c.upsertTaskDocument taskIndexTtlSeconds service doc e t).shown =
      (c.absorb c.localTime p e).shown c.isoformatZ := by
  have parsed := parseDatetime_eq valid
  cases p with
  | none =>
    obtain rfl : doc = none := by simpa using shows
    simp [upsertTaskDocument, absorb, StudioTaskSearchDocument.shown, Summary.shown,
      timestamp_ne valid, isNotEarlier, earlierIso, laterIso, parsed]
  | some p =>
    obtain ⟨d, rfl, fields⟩ := Option.map_eq_some_iff.mp shows
    simp only [StudioTaskSearchDocument.shown, Summary.shown, Shown.mk.injEq] at fields
    obtain ⟨status, stage, kind, latest, first, last⟩ := fields
    obtain ⟨readLatest, readFirst, readLast⟩ := reads p rfl
    unfold ReadsBack at readLatest readFirst readLast
    simp only [upsertTaskDocument, absorb, StudioTaskSearchDocument.shown, Summary.shown,
      Option.getD_some, timestamp_ne valid, isNotEarlier, earlierIso, laterIso, parsed, status,
      stage, kind, latest, first, last, readLatest, readFirst, readLast]
    by_cases later : p.latestEventAt ≤ c.localTime e <;> simp [later]

theorem documentOf_shown (valid : ∀ e ∈ es, c.Valid e)
    (reads : ∀ e ∈ es, c.ReadsBack (c.localTime e)) :
    (c.documentOf taskIndexTtlSeconds service now es).map (·.shown) =
      (c.replay c.localTime es).map (·.shown c.isoformatZ) := by
  induction es using List.reverseRecOn with
  | nil => rfl
  | append_singleton es e ih =>
    rw [List.forall_mem_append, List.forall_mem_singleton] at valid reads
    rw [replay_concat, documentOf, List.foldl_append]
    refine congrArg some (upsertTaskDocument_shown valid.2 (fun q hq => ?_) (ih valid.1 reads.1))
    have readsAt (t : Int) (ht : t ∈ es.map c.localTime) : c.ReadsBack t := by
      obtain ⟨e', he', rfl⟩ := List.mem_map.mp ht
      exact reads.1 e' he'
    obtain ⟨latest, first, last⟩ := replay_times hq
    exact ⟨readsAt _ latest, readsAt _ first, readsAt _ last⟩

theorem upsertTaskProjection_shown {e : StudioControlPlaneEvent} (valid : c.Valid e)
    {row : Option TaskProjectionRow} {p : Option Summary} {t : Int}
    (shows : row.map (·.shown) = p.map (·.shown id)) :
    (c.upsertTaskProjection serviceName environment ttlSeconds row e t).shown =
      (c.absorb c.utcTime p e).shown id := by
  have parsed := parseTimestamp_eq valid
  cases p with
  | none =>
    obtain rfl : row = none := by simpa using shows
    simp [upsertTaskProjection, absorb, TaskProjectionRow.shown, Summary.shown, combine, parsed]
  | some p =>
    obtain ⟨d, rfl, fields⟩ := Option.map_eq_some_iff.mp shows
    simp only [TaskProjectionRow.shown, Summary.shown, Shown.mk.injEq, id] at fields
    obtain ⟨status, stage, kind, latest, first, last⟩ := fields
    simp only [upsertTaskProjection, absorb, TaskProjectionRow.shown, Summary.shown, combine,
      Option.bind_some, parsed, status, stage, kind, latest, first, last]
    by_cases later : p.latestEventAt ≤ c.utcTime e <;> simp [later]

theorem rowOf_shown (valid : ∀ e ∈ es, c.Valid e) :
    (c.rowOf serviceName environment ttlSeconds now es).map (·.shown) =
      (c.replay c.utcTime es).map (·.shown id) := by
  induction es using List.reverseRecOn with
  | nil => rfl
  | append_singleton es e ih =>
    rw [List.forall_mem_append, List.forall_mem_singleton] at valid
    rw [replay_concat, rowOf, List.foldl_append]
    exact congrArg some (upsertTaskProjection_shown valid.2 (ih valid.1))

/-! ## Every order -/

/-- In every order the replay shows the summary. -/
theorem replay_every_order_iff {τ : Type} (write : Int → τ) (distinct : Distinct time es) :
    (∀ l, l.Perm es → (c.replay time l).map (·.shown write) =
      (c.summary time es).map (·.shown write)) ↔ Agree c.status es ∧ Agree c.stage es := by
  rw [← lastCarried_eq_latest_iff time, ← lastCarried_eq_latest_iff time, ← forall_and]
  refine forall_congr' fun l => ?_
  rw [← imp_and]
  refine imp_congr_right fun perm => ?_
  rw [replay_eq (distinct.perm perm), summary, summaryWith, summaryWith, argmax_perm distinct perm,
    argmin_perm distinct perm]
  cases newest : es.argmax time with
  | none =>
    obtain rfl := List.argmax_eq_none.mp newest
    obtain rfl := perm.eq_nil
    simp [lastCarried, latestCarried]
  | some m =>
    obtain ⟨n, oldest⟩ : ∃ n, es.argmin time = some n := by
      refine Option.ne_none_iff_exists'.mp fun none_ => ?_
      rw [List.argmin_eq_none.mp none_] at newest
      cases newest
    simp [oldest, Summary.shown]

end Calendar

theorem projection_every_order_iff (c : Calendar) (es : List StudioControlPlaneEvent)
    (valid : ∀ e ∈ es, c.Valid e) (reads : ∀ e ∈ es, c.ReadsBack (c.localTime e))
    (distinct : Distinct c.localTime es) (distinctUtc : Distinct c.utcTime es) :
    ((∀ ttl service now l, l.Perm es → (c.documentOf ttl service now l).map (·.shown) =
      (c.summary c.localTime es).map (·.shown c.isoformatZ)) ↔
        Agree c.status es ∧ Agree c.stage es) ∧
    ((∀ name environment ttl now l, l.Perm es →
      (c.rowOf name environment ttl now l).map (·.shown) =
        (c.summary c.utcTime es).map (·.shown id)) ↔ Agree c.status es ∧ Agree c.stage es) := by
  have inOrder {l : List StudioControlPlaneEvent} (perm : l.Perm es) : ∀ e ∈ l, c.Valid e :=
    fun e he => valid e (perm.mem_iff.mp he)
  have document {ttl : Int} {service : ServiceRecord} {now : StudioControlPlaneEvent → Int}
      {l : List StudioControlPlaneEvent} (perm : l.Perm es) :
      (c.documentOf ttl service now l).map (·.shown) =
        (c.replay c.localTime l).map (·.shown c.isoformatZ) :=
    Calendar.documentOf_shown (inOrder perm) fun e he => reads e (perm.mem_iff.mp he)
  constructor
  · refine Iff.trans ?_ (Calendar.replay_every_order_iff c.isoformatZ distinct)
    constructor
    · intro every l perm
      rw [← every 0 ⟨"", "", ""⟩ (fun _ => 0) l perm]
      exact (document perm).symm
    · intro every ttl service now l perm
      rw [document perm]
      exact every l perm
  · refine Iff.trans ?_ (Calendar.replay_every_order_iff id distinctUtc)
    constructor
    · intro every l perm
      rw [← every "" "" 0 (fun _ => 0) l perm]
      exact (Calendar.rowOf_shown (inOrder perm)).symm
    · intro every name environment ttl now l perm
      rw [Calendar.rowOf_shown (inOrder perm)]
      exact every l perm

/-! ## Two events -/

/-- The first two seconds of a year. -/
def newYear : Calendar where
  text := plainText
  fromisoformat s :=
    if s = "2026-01-01T00:00:00+00:00" then some ⟨1767225600000000, some 0⟩
    else if s = "2026-01-01T00:00:01+00:00" then some ⟨1767225601000000, some 0⟩
    else none
  localOffset _ := 0
  isoformat t :=
    if t = 1767225600000000 then "2026-01-01T00:00:00+00:00" else "2026-01-01T00:00:01+00:00"
  isoformatZ t := if t = 1767225600000000 then "2026-01-01T00:00:00Z" else "2026-01-01T00:00:01Z"

def taskEvent (cursor : String) (named : cursor ≠ "") (timestamp status : String) :
    StudioControlPlaneEvent where
  serviceId := "svc"
  ingestMethod := .pull
  event :=
    { cursor := cursor, cursor_ne := named, taskId := "task", eventType := "status.updated",
      sourceKind := .status, component := none, timestamp := some timestamp, eventId := none,
      correlationId := none, parentTaskId := none, payload := [("status", .str status)] }
  ingestedAt := 1767225601000000
  dedupeKey := cursor
  outOfOrder := false

theorem one_ne_empty : "1" ≠ "" := by decide

theorem two_ne_empty : "2" ≠ "" := by decide

def running : StudioControlPlaneEvent :=
  taskEvent "1" one_ne_empty "2026-01-01T00:00:00Z" "running"

def stillRunning : StudioControlPlaneEvent :=
  taskEvent "2" two_ne_empty "2026-01-01T00:00:01Z" "running"

def completed : StudioControlPlaneEvent :=
  taskEvent "2" two_ne_empty "2026-01-01T00:00:01Z" "completed"

theorem still_running_every_order :
    (∀ ttl service now l, l.Perm [running, stillRunning] →
      (newYear.documentOf ttl service now l).map (·.shown) =
        (newYear.summary newYear.localTime [running, stillRunning]).map
          (·.shown newYear.isoformatZ)) ∧
    ∀ name environment ttl now l, l.Perm [running, stillRunning] →
      (newYear.rowOf name environment ttl now l).map (·.shown) =
        (newYear.summary newYear.utcTime [running, stillRunning]).map (·.shown id) := by
  have same : ∀ e ∈ [running, stillRunning], newYear.status e = some "running" := by
    simp only [List.forall_mem_cons]
    exact ⟨by decide +kernel, by decide +kernel, List.forall_mem_nil _⟩
  have none_ : ∀ e ∈ [running, stillRunning], newYear.stage e = none := by
    simp only [List.forall_mem_cons]
    exact ⟨by decide +kernel, by decide +kernel, List.forall_mem_nil _⟩
  have agree : Agree newYear.status [running, stillRunning] ∧
      Agree newYear.stage [running, stillRunning] := by
    refine ⟨fun a ha b hb x y hx hy => ?_, fun a ha b hb x y hx hy => ?_⟩
    · exact Option.some.inj ((hx.symm.trans (same a ha)).trans ((same b hb).symm.trans hy))
    · rw [none_ a ha] at hx
      cases hx
  have valid : ∀ e ∈ [running, stillRunning], newYear.Valid e := by
    simp only [List.forall_mem_cons]
    exact ⟨by decide +kernel, by decide +kernel, List.forall_mem_nil _⟩
  have reads : ∀ e ∈ [running, stillRunning], newYear.ReadsBack (newYear.localTime e) := by
    simp only [List.forall_mem_cons]
    exact ⟨by decide +kernel, by decide +kernel, List.forall_mem_nil _⟩
  obtain ⟨document, row⟩ := projection_every_order_iff newYear [running, stillRunning] valid reads
    (by decide +kernel) (by decide +kernel)
  exact ⟨document.mpr agree, row.mpr agree⟩

theorem newest_first_leaves_oldest_status :
    (newYear.documentOf 60 ⟨"svc", "svc", "prod"⟩ (fun _ => 0) [completed, running]).bind
        (·.status) = some "running" ∧
    (newYear.rowOf "svc" "prod" 60 (fun _ => 0) [completed, running]).bind (·.status) =
      some "running" ∧
    (newYear.summary newYear.localTime [running, completed]).bind (·.status) = some "completed" ∧
    (newYear.summary newYear.utcTime [running, completed]).bind (·.status) = some "completed" := by
  decide +kernel

end Relayna.Studio.TaskProjection
