import Relayna.Studio.Events

/-!
# The latest timestamps

`insert_event` compares its timestamp with a value that it has read two round trips before, and
sets the key on that ground. The stored value stays the greatest as long as no pipeline sets a key
over a later timestamp that another call has stored in between. The keys of a task say something
about that task as long as no other task shares its name.
-/
namespace Relayna.Studio.Events

open Python Transition Observability

/-! ## A greatest value that is set after a stale read -/

section Highest

variable {c : RedisStudioEventStore} {stored r : Option String} {times : List String} {t : String}

theorem earlier_eq_false_iff {a b : String} : c.earlier a b = false ↔
    ∀ y, c.parseTimestamp b = some y → ∃ x, c.parseTimestamp a = some x ∧ y ≤ x := by
  unfold RedisStudioEventStore.earlier
  cases c.parseTimestamp a <;> cases c.parseTimestamp b <;> simp

theorem earlier_eq_false_trans {a b d : String} (hab : c.earlier b a = false)
    (hbd : c.earlier d b = false) : c.earlier d a = false := by
  rw [earlier_eq_false_iff] at *
  intro x hx
  obtain ⟨y, hy, le⟩ := hab x hx
  obtain ⟨z, hz, le'⟩ := hbd y hy
  exact ⟨z, hz, le.trans le'⟩

theorem earlier_self (t : String) : c.earlier t t = false :=
  earlier_eq_false_iff.mpr fun x hx => ⟨x, hx, le_rfl⟩

/-- The stored timestamp is one of the times and none of them is later. -/
structure Highest (c : RedisStudioEventStore) (stored : Option String) (times : List String) :
    Prop where
  mem : ∀ l ∈ stored, l ∈ times
  upper : ∀ t ∈ times, ∃ l ∈ stored, c.earlier l t = false

theorem highest_nil : Highest c none [] := ⟨by simp, by simp⟩

/-- A pipeline sets the key when its event is later than what was read, and nothing later has been
stored since. -/
theorem Highest.write (h : Highest c stored times) (drawn : ∀ l ∈ r, l ∈ times)
    (kept : c.advances (some t) r = true → ∀ l ∈ stored, c.earlier t l = false) :
    Highest c (if c.advances (some t) r then some t else stored) (times ++ [t]) := by
  by_cases advances : c.advances (some t) r = true
  · rw [if_pos advances]
    refine ⟨fun l hl => ?_, fun u hu => ⟨t, rfl, ?_⟩⟩
    · obtain rfl := Option.some.inj hl
      exact List.mem_append_right _ List.mem_cons_self
    · rcases List.mem_append.mp hu with hu | hu
      · obtain ⟨l, hl, above⟩ := h.upper u hu
        exact earlier_eq_false_trans above (kept advances l hl)
      · obtain rfl := List.mem_singleton.mp hu
        exact earlier_self u
  · rw [if_neg advances]
    -- the value that was read is not earlier, and the stored one is not earlier than that
    obtain ⟨l, hr, above⟩ : ∃ l ∈ r, c.earlier l t = false := by
      cases r with
      | none => simp [RedisStudioEventStore.advances] at advances
      | some l => exact ⟨l, rfl, by simpa [RedisStudioEventStore.advances] using advances⟩
    refine ⟨fun l hl => List.mem_append_left _ (h.mem l hl), fun u hu => ?_⟩
    rcases List.mem_append.mp hu with hu | hu
    · exact h.upper u hu
    · obtain rfl := List.mem_singleton.mp hu
      obtain ⟨m, hm, above'⟩ := h.upper l (drawn l hr)
      exact ⟨m, hm, earlier_eq_false_trans above above'⟩

/-- The instant that the stored timestamp denotes is the greatest of the instants. -/
theorem Highest.denotes (h : Highest c stored times)
    (valid : ∀ t ∈ times, (c.parseTimestamp t).isSome = true) :
    stored.bind c.parseTimestamp = (times.filterMap c.parseTimestamp).max? := by
  cases stored with
  | none =>
    have none_stored : times = [] := by
      refine List.eq_nil_iff_forall_not_mem.mpr fun t ht => ?_
      obtain ⟨l, hl, -⟩ := h.upper t ht
      cases hl
    simp [none_stored]
  | some l =>
    obtain ⟨x, hx⟩ := Option.isSome_iff_exists.mp (valid l (h.mem l rfl))
    refine Eq.symm ?_
    simp only [Option.bind_some, hx]
    rw [List.max?_eq_some_iff]
    refine ⟨List.mem_filterMap.mpr ⟨l, h.mem l rfl, hx⟩, fun y hy => ?_⟩
    obtain ⟨t, ht, hy⟩ := List.mem_filterMap.mp hy
    obtain ⟨m, hm, above⟩ := h.upper t ht
    obtain rfl := Option.some.inj hm
    simpa [RedisStudioEventStore.earlier, hx, hy] using above

end Highest

/-! ## Reading a key -/

section Read

variable {α : Type} {c : RedisStudioEventStore} {clock now : Int} {cell : Option (Cell α)}

/-- The key does not expire up to `now`. -/
def keeps (now : Int) (cell : Option (Cell α)) : Bool :=
  cell.all fun x => x.deadline.all (now < ·)

theorem read_of_keeps (kept : keeps now cell = true) (later : clock ≤ now) :
    read now cell = read clock cell := by
  cases cell with
  | none => rfl
  | some x =>
    obtain ⟨v, deadline⟩ := x
    have kept' : deadline.all (now < ·) = true := kept
    have before : deadline.all (clock < ·) = true := by
      cases deadline with
      | none => rfl
      | some d =>
        simp only [Option.all_some, decide_eq_true_eq] at kept' ⊢
        omega
    simp [read, live, Option.filter, kept', before]

theorem read_none_of_le (later : clock ≤ now) (absent : read clock cell = none) :
    read now cell = none := by
  cases cell with
  | none => rfl
  | some x =>
    obtain ⟨v, deadline⟩ := x
    cases deadline with
    | none => simp [read, live, Option.filter] at absent
    | some d =>
      have gone : ¬clock < d := by simpa [read, live, Option.filter] using absent
      have gone' : ¬now < d := by omega
      simp [read, live, Option.filter, gone']

theorem read_written (v : α) : read clock (some ⟨v, c.deadline clock⟩) = some v := by
  have fresh : (c.deadline clock).all (clock < ·) = true := by
    unfold RedisStudioEventStore.deadline
    cases c.ttlSeconds with
    | none => rfl
    | some ttl =>
      by_cases zero : ttl = 0
      · simp [Option.filter, zero]
      · have kept : (some ttl).filter (· ≠ 0) = some ttl := by simp [zero]
        rw [kept, Option.map_some, Option.all_some, decide_eq_true_eq]
        omega
  simp [read, live, Option.filter, fresh]

theorem read_setLatest (timestamp latest : Option String) (cell : Option (Cell String)) :
    read clock (c.setLatest clock timestamp latest cell) =
      if c.advances timestamp latest then timestamp else read clock cell := by
  unfold RedisStudioEventStore.setLatest
  split
  · cases timestamp with
    | none => rfl
    | some t => exact read_written t
  · rfl

end Read

/-! ## The events of a key -/

def timesOf (p : StudioControlPlaneEvent → Bool) (events : List StudioControlPlaneEvent) :
    List String :=
  (events.filter p).filterMap fun e => e.event.timestamp

def inScope (scope : String) (e : StudioControlPlaneEvent) : Bool := e.taskScope = scope

def ofKind (kind : ServiceEventSourceKind) (serviceId : String) (e : StudioControlPlaneEvent) :
    Bool :=
  e.event.sourceKind = kind && e.serviceId = serviceId

theorem timesOf_append (p : StudioControlPlaneEvent → Bool) (events : List StudioControlPlaneEvent)
    (e : StudioControlPlaneEvent) : timesOf p (events ++ [e]) =
      timesOf p events ++ if p e then e.event.timestamp.toList else [] := by
  unfold timesOf
  rw [List.filter_append, List.filterMap_append]
  congr 1
  cases hp : p e
  · simp [hp]
  · cases ht : e.event.timestamp <;> simp [hp, ht]

theorem mem_timesOf_append {p : StudioControlPlaneEvent → Bool}
    {events : List StudioControlPlaneEvent} {e : StudioControlPlaneEvent} {t : String}
    (h : t ∈ timesOf p events) : t ∈ timesOf p (events ++ [e]) := by
  rw [timesOf_append]
  exact List.mem_append_left _ h

/-- The key of one scope after the pipeline of an event, whichever key that is. -/
theorem highest_pipeline {c : RedisStudioEventStore} {p : StudioControlPlaneEvent → Bool}
    {events : List StudioControlPlaneEvent} {e : StudioControlPlaneEvent} {stored r : Option String}
    (h : Highest c stored (timesOf p events)) (here : p e = true)
    (drawn : ∀ l ∈ r, l ∈ timesOf p events)
    (kept : c.advances e.event.timestamp r = true → ∀ t ∈ e.event.timestamp, ∀ l ∈ stored,
      c.earlier t l = false) :
    Highest c (if c.advances e.event.timestamp r then e.event.timestamp else stored)
      (timesOf p (events ++ [e])) := by
  rw [timesOf_append, if_pos here]
  cases ht : e.event.timestamp with
  | none => simpa [RedisStudioEventStore.advances] using h
  | some t =>
    rw [ht] at kept
    exact h.write drawn fun advances => kept advances t rfl

/-! ## Runs -/

/-- The events have timestamps that can be parsed, and no latest timestamp expires. -/
def given (c : StudioEventIngestService) (s : Ingest) : IngestStep → Bool
  | .start _ e => e.event.timestamp.any fun t => (c.eventStore.parseTimestamp t).isSome
  | .clock now => s.started.all fun e =>
    keeps now (s.keys.taskLatest e.taskScope) &&
      keeps now (s.keys.serviceLatest e.event.sourceKind e.serviceId)
  | _ => true

/-- A pipeline that sets a latest timestamp does not find a later one, and no two tasks share the
name of their keys. -/
def untangled (c : StudioEventIngestService) (s : Ingest) : IngestStep → Bool
  | .start _ e => s.started.all fun e' =>
    e'.taskScope ≠ e.taskScope ||
      (e'.serviceId = e.serviceId && e'.event.taskId = e.event.taskId)
  | .await n =>
    match s.calls n with
    | some (_, .pipeline r e) =>
      let allows (read latest : Option String) : Bool :=
        !c.eventStore.advances e.event.timestamp read ||
          e.event.timestamp.all fun t => latest.all fun l => !c.eventStore.earlier t l
      allows r.task (read s.clock (s.keys.taskLatest e.taskScope)) &&
        allows (r.ofKind e.event.sourceKind)
          (read s.clock (s.keys.serviceLatest e.event.sourceKind e.serviceId))
    | _ => true
  | _ => true

/-- An event of the same task, with a later timestamp. -/
structure Overtaken (c : RedisStudioEventStore) (by' e : StudioControlPlaneEvent) : Prop where
  service : by'.serviceId = e.serviceId
  task : by'.event.taskId = e.event.taskId
  later : ∃ l t, by'.event.timestamp = some l ∧ e.event.timestamp = some t ∧
    c.earlier t l = true

/-- What a call has taken from its `MGET`. -/
structure Drawn (c : RedisStudioEventStore) (s : Ingest) (e : StudioEventEnvelope) (r : Latest)
    (event : StudioControlPlaneEvent) : Prop where
  same : event.toStudioEventEnvelope = e
  task : ∀ l ∈ r.task, l ∈ timesOf (inScope e.taskScope) s.pushed
  service : ∀ l ∈ r.ofKind e.event.sourceKind,
    l ∈ timesOf (ofKind e.event.sourceKind e.serviceId) s.pushed
  flagged : event.outOfOrder = true → ∃ e' ∈ s.pushed, Overtaken c e' event

structure LatestInv (c : StudioEventIngestService) (s : Ingest) : Prop where
  task : ∀ scope, Highest c.eventStore (read s.clock (s.keys.taskLatest scope))
    (timesOf (inScope scope) s.pushed)
  service : ∀ kind serviceId, Highest c.eventStore
    (read s.clock (s.keys.serviceLatest kind serviceId)) (timesOf (ofKind kind serviceId) s.pushed)
  known : ∀ {n e p}, s.calls n = some (e, p) → e ∈ s.started
  pushed : ∀ e ∈ s.pushed, e.toStudioEventEnvelope ∈ s.started
  valid : ∀ e ∈ s.started, ∃ t x, e.event.timestamp = some t ∧
    c.eventStore.parseTimestamp t = some x
  apart : ∀ e ∈ s.started, ∀ e' ∈ s.started, e'.taskScope = e.taskScope →
    e'.serviceId = e.serviceId ∧ e'.event.taskId = e.event.taskId
  drawn : ∀ {n e r event}, s.calls n = some (e, .set r event) ∨
    s.calls n = some (e, .pipeline r event) → Drawn c.eventStore s e r event
  flagged : ∀ before e after, s.pushed = before ++ e :: after → e.outOfOrder = true →
    ∃ e' ∈ before, Overtaken c.eventStore e' e

section Step

variable {c : StudioEventIngestService} {s t : Ingest} {n : Nat} {e : StudioEventEnvelope}
  {p p' : Call}

/-- After one call has moved, whatever a call is at is where that one moved to or was before. -/
theorem calls_update {calls : Nat → Option (StudioEventEnvelope × Call)} {m : Nat}
    {e' : StudioEventEnvelope} (h : Function.update calls n (some (e, p)) m = some (e', p')) :
    (e' = e ∧ p' = p) ∨ calls m = some (e', p') := by
  rcases update_some_cases h with ⟨-, same⟩ | ⟨-, same⟩
  · exact Or.inl (Prod.mk.inj same)
  · exact Or.inr same

theorem Drawn.mono {r : Latest} {event : StudioControlPlaneEvent}
    (h : Drawn c.eventStore s e r event)
    (pushed : t.pushed = s.pushed ∨ ∃ e', t.pushed = s.pushed ++ [e']) :
    Drawn c.eventStore t e r event := by
  rcases pushed with same | ⟨e', more⟩
  · exact ⟨h.same, same ▸ h.task, same ▸ h.service, same ▸ h.flagged⟩
  · refine ⟨h.same, fun l hl => ?_, fun l hl => ?_, fun flag => ?_⟩
    · exact more ▸ mem_timesOf_append (h.task l hl)
    · exact more ▸ mem_timesOf_append (h.service l hl)
    · obtain ⟨e₀, mem, overtaken⟩ := h.flagged flag
      exact ⟨e₀, more ▸ List.mem_append_left _ mem, overtaken⟩

/-- A call moves on and no latest timestamp is written. -/
theorem LatestInv.move (inv : LatestInv c s) (here : s.calls n = some (e, p))
    (calls : t.calls = Function.update s.calls n (some (e, p'))) (clock : t.clock = s.clock)
    (taskLatest : t.keys.taskLatest = s.keys.taskLatest)
    (serviceLatest : t.keys.serviceLatest = s.keys.serviceLatest)
    (started : t.started = s.started) (pushed : t.pushed = s.pushed)
    (drawn : ∀ r event, p' = .set r event ∨ p' = .pipeline r event →
      Drawn c.eventStore s e r event) : LatestInv c t := by
  have moved {m : Nat} {e' : StudioEventEnvelope} {p₀ : Call} (h : t.calls m = some (e', p₀)) :
      (e' = e ∧ p₀ = p') ∨ s.calls m = some (e', p₀) := calls_update (calls ▸ h)
  refine ⟨?_, ?_, fun h => ?_, ?_, ?_, ?_, fun h => ?_, ?_⟩
  · rw [clock, taskLatest, pushed]
    exact inv.task
  · rw [clock, serviceLatest, pushed]
    exact inv.service
  · rw [started]
    rcases moved h with ⟨rfl, -⟩ | h
    · exact inv.known here
    · exact inv.known h
  · rw [pushed, started]
    exact inv.pushed
  · rw [started]
    exact inv.valid
  · rw [started]
    exact inv.apart
  · refine Drawn.mono (s := s) ?_ (Or.inl pushed)
    rcases h with h | h
    · rcases moved h with ⟨rfl, hp⟩ | h
      · exact drawn _ _ (Or.inl hp.symm)
      · exact inv.drawn (Or.inl h)
    · rcases moved h with ⟨rfl, hp⟩ | h
      · exact drawn _ _ (Or.inr hp.symm)
      · exact inv.drawn (Or.inr h)
  · rw [pushed]
    exact inv.flagged

theorem mem_pushed_of_times {f : StudioControlPlaneEvent → Bool} {l : String}
    (h : l ∈ timesOf f s.pushed) : ∃ e ∈ s.pushed, f e = true ∧ e.event.timestamp = some l := by
  obtain ⟨e, he, ht⟩ := List.mem_filterMap.mp h
  exact ⟨e, (List.mem_filter.mp he).1, (List.mem_filter.mp he).2, ht⟩

/-- A key that holds something belongs to an event that has been started. -/
theorem LatestInv.clock (inv : LatestInv c s) {now : Int} (later : s.clock ≤ now)
    (ok : given c s (.clock now) = true) : LatestInv c { s with clock := now } := by
  have kept {e : StudioEventEnvelope} (he : e ∈ s.started) := List.all_eq_true.mp ok e he
  refine { inv with task := fun scope => ?_, service := fun kind serviceId => ?_, drawn := ?_ }
  · have h := inv.task scope
    suffices read now (s.keys.taskLatest scope) = read s.clock (s.keys.taskLatest scope) by
      simpa only [this] using h
    cases found : read s.clock (s.keys.taskLatest scope) with
    | none => exact read_none_of_le later found
    | some l =>
      obtain ⟨e, mem, here, -⟩ := mem_pushed_of_times (h.mem l found)
      obtain rfl : e.taskScope = scope := by simpa [inScope] using here
      rw [← found]
      exact read_of_keeps (Bool.and_eq_true_iff.mp (kept (inv.pushed e mem))).1 later
  · have h := inv.service kind serviceId
    suffices read now (s.keys.serviceLatest kind serviceId) =
        read s.clock (s.keys.serviceLatest kind serviceId) by
      simpa only [this] using h
    cases found : read s.clock (s.keys.serviceLatest kind serviceId) with
    | none => exact read_none_of_le later found
    | some l =>
      obtain ⟨e, mem, here, -⟩ := mem_pushed_of_times (h.mem l found)
      obtain ⟨rfl, rfl⟩ : e.event.sourceKind = kind ∧ e.serviceId = serviceId := by
        simpa [ofKind] using here
      rw [← found]
      exact read_of_keeps (Bool.and_eq_true_iff.mp (kept (inv.pushed e mem))).2 later
  · exact fun h => (inv.drawn h).mono (Or.inl rfl)

theorem LatestInv.start (inv : LatestInv c s)
    (ok : given c s (.start n e) = true) (apart : untangled c s (.start n e) = true) :
    LatestInv c (StudioEventIngestService.move
      { s with ids := n :: s.ids, started := e :: s.started } n e .getService) := by
  have others (e' : StudioEventEnvelope) (he' : e' ∈ s.started)
      (same : e'.taskScope = e.taskScope) :
      e'.serviceId = e.serviceId ∧ e'.event.taskId = e.event.taskId := by
    simpa [same] using List.all_eq_true.mp apart e' he'
  refine { inv with known := fun h => ?_, pushed := ?_, valid := ?_, apart := ?_, drawn := ?_ }
  · rcases calls_update h with ⟨rfl, -⟩ | h
    · exact List.mem_cons_self
    · exact List.mem_cons_of_mem _ (inv.known h)
  · exact fun e' he' => List.mem_cons_of_mem _ (inv.pushed e' he')
  · intro e' he'
    rcases List.mem_cons.mp he' with rfl | he'
    · obtain ⟨t, ht, valid⟩ := (Option.any_eq_true _ _).mp ok
      obtain ⟨x, hx⟩ := Option.isSome_iff_exists.mp valid
      exact ⟨t, x, ht, hx⟩
    · exact inv.valid e' he'
  · intro e₁ h₁ e₂ h₂ same
    rcases List.mem_cons.mp h₁ with rfl | old₁
    · rcases List.mem_cons.mp h₂ with rfl | old₂
      · exact ⟨rfl, rfl⟩
      · exact others e₂ old₂ same
    · rcases List.mem_cons.mp h₂ with rfl | old₂
      · obtain ⟨service, task⟩ := others e₁ old₁ same.symm
        exact ⟨service.symm, task.symm⟩
      · exact inv.apart e₁ old₁ e₂ old₂ same
  · rintro m e' r event (h | h)
    · rcases calls_update h with ⟨-, hp⟩ | h
      · cases hp
      · exact (inv.drawn (Or.inl h)).mono (Or.inl rfl)
    · rcases calls_update h with ⟨-, hp⟩ | h
      · cases hp
      · exact (inv.drawn (Or.inr h)).mono (Or.inl rfl)

/-- The `MGET` reads values that were set by events before. -/
theorem LatestInv.drawn_mget (inv : LatestInv c s) (known : e ∈ s.started) :
    Drawn c.eventStore s e (s.keys.mget s.clock e)
      (c.eventStore.normalized s.clock (s.keys.mget s.clock e) e) := by
  refine ⟨rfl, (inv.task e.taskScope).mem, ?_, fun flag => ?_⟩
  · have kinds : (s.keys.mget s.clock e).ofKind e.event.sourceKind =
        read s.clock (s.keys.serviceLatest e.event.sourceKind e.serviceId) := by
      cases e.event.sourceKind <;> rfl
    rw [kinds]
    exact (inv.service _ _).mem
  · obtain ⟨l, found, later⟩ := (Option.any_eq_true _ _).mp flag
    obtain ⟨t, ht, later⟩ := (Option.any_eq_true _ _).mp later
    obtain ⟨e', mem, here, ht'⟩ := mem_pushed_of_times ((inv.task e.taskScope).mem l found)
    obtain ⟨service, task⟩ := inv.apart e known e'.toStudioEventEnvelope (inv.pushed e' mem)
      (by simpa [inScope] using here)
    exact ⟨e', mem, service, task, l, t, ht', ht, later⟩

/-- The pipeline of a call. -/
theorem LatestInv.pipeline (inv : LatestInv c s) {r : Latest} {event : StudioControlPlaneEvent}
    (here : s.calls n = some (e, .pipeline r event)) (ok : untangled c s (.await n) = true)
    (after : p' = .index ∨ p' = .inserted) :
    LatestInv c (StudioEventIngestService.move (c.runPipeline s r event) n e p') := by
  have drawn := inv.drawn (Or.inr here)
  obtain rfl : event.toStudioEventEnvelope = e := drawn.same
  simp only [untangled, here, Bool.and_eq_true, Bool.or_eq_true, Bool.not_eq_true',
    Option.all_eq_true] at ok
  have kept {read latest : Option String}
      (h : c.eventStore.advances event.event.timestamp read = false ∨
        ∀ t ∈ event.event.timestamp, ∀ l ∈ latest, c.eventStore.earlier t l = false)
      (advances : c.eventStore.advances event.event.timestamp read = true) :
      ∀ t ∈ event.event.timestamp, ∀ l ∈ latest, c.eventStore.earlier t l = false := by
    rw [advances] at h
    simpa using h
  refine { inv with
    task := fun scope => ?_, service := fun kind serviceId => ?_, known := fun h => ?_, pushed := ?_
    drawn := ?_, flagged := ?_ }
  · show Highest _ (read s.clock (Function.update s.keys.taskLatest _ _ scope))
      (timesOf _ (s.pushed ++ [event]))
    by_cases same : scope = event.taskScope
    · subst same
      rw [Function.update_self, read_setLatest]
      exact highest_pipeline (inv.task _) (by simp [inScope]) drawn.task (kept ok.1)
    · rw [Function.update_of_ne same, timesOf_append]
      simpa [inScope, Ne.symm same] using inv.task scope
  · show Highest _ (read s.clock (Function.update s.keys.serviceLatest _ _ kind serviceId))
      (timesOf _ (s.pushed ++ [event]))
    by_cases same : kind = event.event.sourceKind ∧ serviceId = event.serviceId
    · obtain ⟨rfl, rfl⟩ := same
      rw [Function.update_self, Function.update_self, read_setLatest]
      exact highest_pipeline (inv.service _ _) (by simp [ofKind]) drawn.service (kept ok.2)
    · have unchanged : Function.update s.keys.serviceLatest event.event.sourceKind
          (Function.update (s.keys.serviceLatest event.event.sourceKind) event.serviceId
            (c.eventStore.setLatest s.clock event.event.timestamp (r.ofKind event.event.sourceKind)
              (s.keys.serviceLatest event.event.sourceKind event.serviceId))) kind serviceId =
          s.keys.serviceLatest kind serviceId := by
        by_cases kinds : kind = event.event.sourceKind
        · subst kinds
          rw [Function.update_self, Function.update_of_ne fun services => same ⟨rfl, services⟩]
        · rw [Function.update_of_ne kinds]
      have other : ofKind kind serviceId event = false := by
        rw [← Bool.not_eq_true]
        intro kinds
        have : event.event.sourceKind = kind ∧ event.serviceId = serviceId := by
          simpa [ofKind] using kinds
        exact same ⟨this.1.symm, this.2.symm⟩
      rw [unchanged, timesOf_append, other]
      simpa using inv.service kind serviceId
  · rcases calls_update h with ⟨rfl, -⟩ | h
    · exact inv.known here
    · exact inv.known h
  · intro e' he'
    rcases List.mem_append.mp he' with he' | he'
    · exact inv.pushed e' he'
    · obtain rfl := List.mem_singleton.mp he'
      exact inv.known here
  · rintro m e' r' event' h
    refine (inv.drawn (n := m) ?_).mono (Or.inr ⟨event, rfl⟩)
    rcases h with h | h
    · rcases calls_update h with ⟨-, rfl⟩ | h
      · rcases after with after | after <;> cases after
      · exact Or.inl h
    · rcases calls_update h with ⟨-, rfl⟩ | h
      · rcases after with after | after <;> cases after
      · exact Or.inr h
  · intro before e' rest split flag
    have split : s.pushed ++ [event] = before ++ e' :: rest := split
    rcases List.eq_nil_or_concat rest with rfl | ⟨rest, last, rfl⟩
    · obtain ⟨rfl, same⟩ := List.append_inj' split rfl
      obtain rfl : event = e' := List.cons.inj same |>.1
      exact drawn.flagged flag
    · have split : s.pushed ++ [event] = (before ++ e' :: rest) ++ [last] := by simpa using split
      exact inv.flagged before e' rest (List.append_inj' split rfl).1 flag

theorem LatestInv.step (inv : LatestInv c s) {l : IngestStep} (ok : given c s l = true)
    (free : untangled c s l = true) (taken : next c s l = some t) : LatestInv c t := by
  cases taken_of_next taken with
  | clock later => exact inv.clock later ok
  | start e new => exact inv.start ok free
  | getService here =>
    refine inv.move here rfl rfl rfl rfl rfl rfl fun r event h => ?_
    split at h <;> simp at h
  | mget here =>
    refine inv.move here rfl rfl rfl rfl rfl rfl fun r event h => ?_
    rcases h with h | h
    · obtain ⟨rfl, rfl⟩ := Call.set.inj h
      exact inv.drawn_mget (inv.known here)
    · cases h
  | duplicate here found =>
    exact inv.move here rfl rfl rfl rfl rfl rfl fun r event h => by simp at h
  | marked here absent =>
    refine inv.move here rfl rfl rfl rfl rfl rfl fun r event h => ?_
    rcases h with h | h
    · cases h
    · obtain ⟨rfl, rfl⟩ := Call.pipeline.inj h
      exact inv.drawn (Or.inl here)
  | pipeline here =>
    refine inv.pipeline here free ?_
    split
    · exact Or.inl rfl
    · exact Or.inr rfl
  | index here => exact inv.move here rfl rfl rfl rfl rfl rfl fun r event h => by simp at h
  | raise here going => exact inv.move here rfl rfl rfl rfl rfl rfl fun r event h => by simp at h

end Step

theorem LatestInv.initial {c : StudioEventIngestService} (clock : Int) :
    LatestInv c { clock := clock } := by
  refine ⟨fun _ => highest_nil, fun _ _ => highest_nil, ?_, ?_, ?_, ?_, ?_, ?_⟩
  all_goals simp

/-- The instants of the inserted events that `f` selects. -/
def instants (c : RedisStudioEventStore) (f : StudioControlPlaneEvent → Bool) (s : Ingest) :
    List Int :=
  (timesOf f s.pushed).filterMap c.parseTimestamp

def ofTask (e : StudioEventEnvelope) (e' : StudioControlPlaneEvent) : Bool :=
  e'.serviceId = e.serviceId && e'.event.taskId = e.event.taskId

/-- The stored timestamps denote the latest instants, and an event is flagged only after a later
one of its task. -/
structure Maxima (c : StudioEventIngestService) (s : Ingest) : Prop where
  task : ∀ e ∈ s.started,
    (read s.clock (s.keys.taskLatest e.taskScope)).bind c.eventStore.parseTimestamp =
      (instants c.eventStore (ofTask e) s).max?
  service : ∀ kind serviceId,
    (read s.clock (s.keys.serviceLatest kind serviceId)).bind c.eventStore.parseTimestamp =
      (instants c.eventStore (ofKind kind serviceId) s).max?
  flagged : ∀ before e after, s.pushed = before ++ e :: after → e.outOfOrder = true →
    ∃ e' ∈ before, Overtaken c.eventStore e' e

theorem LatestInv.maxima {c : StudioEventIngestService} {s : Ingest} (inv : LatestInv c s) :
    Maxima c s := by
  have valid {f : StudioControlPlaneEvent → Bool} (l : String) (hl : l ∈ timesOf f s.pushed) :
      (c.eventStore.parseTimestamp l).isSome = true := by
    obtain ⟨e, mem, -, ht⟩ := mem_pushed_of_times hl
    obtain ⟨t, x, ht', hx⟩ := inv.valid _ (inv.pushed e mem)
    obtain rfl := Option.some.inj (ht.symm.trans ht')
    rw [hx]
    rfl
  refine ⟨fun e he => ?_, fun kind serviceId => (inv.service kind serviceId).denotes valid,
    inv.flagged⟩
  have scopes : timesOf (ofTask e) s.pushed = timesOf (inScope e.taskScope) s.pushed := by
    unfold timesOf
    congr 1
    refine List.filter_congr fun e' mem => ?_
    by_cases same : e'.taskScope = e.taskScope
    · obtain ⟨service, task⟩ := inv.apart e he _ (inv.pushed e' mem) same
      simp [ofTask, inScope, same, service, task]
    · have other : ¬(e'.serviceId = e.serviceId ∧ e'.event.taskId = e.event.taskId) :=
        fun h => same (by simp [StudioEventEnvelope.taskScope, h.1, h.2])
      simpa [ofTask, inScope, same] using other
  rw [instants, scopes]
  exact (inv.task e.taskScope).denotes valid

/-- In every interleaving in which no pipeline sets a latest timestamp over a later one and no two
tasks share their keys, the latest timestamps are maxima. -/
theorem latest_timestamps_are_maxima (c : StudioEventIngestService) (clock : Int)
    (ls : List IngestStep) (s : Ingest)
    (ok : (machine c).Along (fun s l => given c s l = true) { clock := clock } ls)
    (free : (machine c).Along (fun s l => untangled c s l = true) { clock := clock } ls)
    (run : (machine c).exec { clock := clock } ls = some s) : Maxima c s := by
  refine LatestInv.maxima ?_
  exact Machine.invariant_along
    (fun s l t inv both taken => inv.step both.1 both.2 taken) (.initial clock) (ok.and free) run

/-! ## Two events of one task -/

def tenth : String := "2026-01-01T00:00:10+00:00"

def twentieth : String := "2026-01-01T00:00:20+00:00"

theorem cursor_ne_empty : "cursor" ≠ "" := by decide

def taskEvent (eventId timestamp : String) : StudioEventEnvelope where
  serviceId := "billing"
  ingestMethod := .push
  event :=
    { cursor := "cursor"
      cursor_ne := cursor_ne_empty
      taskId := "t"
      eventType := "status.running"
      sourceKind := .status
      component := some "status"
      timestamp := some timestamp
      eventId := some eventId
      correlationId := none
      parentTaskId := none
      payload := [] }

def exampleIngest : StudioEventIngestService where
  eventStore :=
    { text := plainText
      fromisoformat := fun s =>
        if s = tenth then some ⟨1767225610000000, some 0⟩
        else if s = twentieth then some ⟨1767225620000000, some 0⟩
        else none
      ttlSeconds := some 86400
      historyMaxlen := 5000 }
  registered := fun s => s = "billing"
  searchIndexer := false

/-- The earlier event is inserted after the later one has been. -/
def oneAfterTheOther : List IngestStep :=
  [.start 0 (taskEvent "b" twentieth), .await 0, .await 0, .await 0, .await 0,
    .start 1 (taskEvent "a" tenth), .await 1, .await 1, .clock 5, .await 1, .await 1]

theorem latest_timestamps_are_maxima_oneAfterTheOther :
    ∃ s, (machine exampleIngest).exec { clock := 0 } oneAfterTheOther = some s ∧
      s.pushed.map (fun e => (e.event.eventId, e.outOfOrder)) =
        [(some "b", false), (some "a", true)] ∧
      read s.clock (s.keys.taskLatest "billing:t") = some twentieth ∧ Maxima exampleIngest s := by
  have given' : (machine exampleIngest).Along (fun s l => given exampleIngest s l = true)
      { clock := 0 } oneAfterTheOther := by
    decide +kernel
  have free : (machine exampleIngest).Along (fun s l => untangled exampleIngest s l = true)
      { clock := 0 } oneAfterTheOther := by
    decide +kernel
  have facts : ((machine exampleIngest).exec { clock := 0 } oneAfterTheOther).map
      (fun s => (s.pushed.map (fun e => (e.event.eventId, e.outOfOrder)),
        read s.clock (s.keys.taskLatest "billing:t"))) =
      some ([(some "b", false), (some "a", true)], some twentieth) := by
    decide +kernel
  obtain ⟨s, run, facts⟩ := Option.map_eq_some_iff.mp facts
  obtain ⟨pushed, latest⟩ := Prod.mk.inj facts
  exact ⟨s, run, pushed, latest,
    latest_timestamps_are_maxima exampleIngest 0 oneAfterTheOther s given' free run⟩

/-- Both calls read before either of them writes. -/
def bothRead : List IngestStep :=
  [.start 0 (taskEvent "b" twentieth), .start 1 (taskEvent "a" tenth), .await 0, .await 1, .await 0,
    .await 1, .await 0, .await 1, .await 0, .await 1]

theorem stale_insert_lowers_latest :
    ∃ s, (machine exampleIngest).Along (fun s l => given exampleIngest s l = true) { clock := 0 }
        bothRead ∧
      (machine exampleIngest).exec { clock := 0 } bothRead = some s ∧
      (s.calls 0).map (fun p => p.2.ended) = some true ∧
      (s.calls 1).map (fun p => p.2.ended) = some true ∧ ¬Maxima exampleIngest s := by
  have given' : (machine exampleIngest).Along (fun s l => given exampleIngest s l = true)
      { clock := 0 } bothRead := by
    decide +kernel
  have facts : ((machine exampleIngest).exec { clock := 0 } bothRead).map
      (fun s => ((s.calls 0).map (fun p => p.2.ended), (s.calls 1).map (fun p => p.2.ended),
        (read s.clock (s.keys.serviceLatest .status "billing")).bind
          exampleIngest.eventStore.parseTimestamp,
        (instants exampleIngest.eventStore (ofKind .status "billing") s).max?)) =
      some (some true, some true, some 1767225610000000, some 1767225620000000) := by
    decide +kernel
  obtain ⟨s, run, facts⟩ := Option.map_eq_some_iff.mp facts
  obtain ⟨first, facts⟩ := Prod.mk.inj facts
  obtain ⟨second, facts⟩ := Prod.mk.inj facts
  obtain ⟨stored, greatest⟩ := Prod.mk.inj facts
  refine ⟨s, given', run, first, second, fun maxima => ?_⟩
  have same := maxima.service .status "billing"
  rw [stored, greatest] at same
  exact absurd same (by decide)

end Relayna.Studio.Events
