import Relayna.Studio.EventLatest

/-!
# Ingesting an event again

The marker is set before the event is pushed to its histories, and the event is pushed before it is
indexed. When the pipeline or the index call raises, the marker stays: every later attempt finds it
and counts the event as a duplicate. So an attempt may only rely on the marker while the attempt
that set it has come to its end. A marker may also expire before the histories do, whose expiry
every later push puts off; the event is then pushed a second time.
-/
namespace Relayna.Studio.Events

open Python Storage Transition Observability

/-! ## One history -/

/-- A history with the entries that `LTRIM` has dropped from it. -/
structure Shelf where
  cell : Option (Cell (List String))
  trimmed : List (String × String)

namespace Shelf

def entries (clock : Int) (h : Shelf) : List String := (read clock h.cell).getD []

/-- The history of `scope` after a push. -/
def push (c : RedisStudioEventStore) (clock : Int) (scope key : String) (h : Shelf) : Shelf :=
  ⟨some (c.push clock h.cell key), trim c clock h.cell scope key h.trimmed⟩

/-- The entry is listed, or it has been trimmed away. -/
def Holds (clock : Int) (scope key : String) (h : Shelf) : Prop :=
  key ∈ h.entries clock ∨ (scope, key) ∈ h.trimmed

/-- The entry is listed under a key that lives at least as long as `deadline`, or trimmed. -/
def Lasts (deadline : Option Int) (scope key : String) (h : Shelf) : Prop :=
  (scope, key) ∈ h.trimmed ∨ ∃ hc, h.cell = some hc ∧ key ∈ hc.value ∧
    ∀ d ∈ hc.deadline, ∃ d' ∈ deadline, d' ≤ d

section Push

variable {c : RedisStudioEventStore} {clock : Int} {scope key other : String} {h : Shelf}
  {deadline : Option Int}

/-- Trimming from the front leaves the front. -/
theorem ltrim_zero_append {α : Type} (l : List α) (stop : Int) :
    ∃ rest, l = ltrim l 0 stop ++ rest := by
  have front : ltrim l 0 stop =
      l.take ((if stop < 0 then (l.length : Int) + stop else stop) + 1).toNat := by
    simp [ltrim, lrange]
  exact ⟨_, by rw [front]; exact (List.take_append_drop _ l).symm⟩

theorem live_of_deadline {α : Type} {cell : Option (Cell α)} {x : Cell α}
    (found : cell = some x) (alive : ∀ d ∈ x.deadline, clock < d) : live clock cell = some x := by
  have all : x.deadline.all (clock < ·) = true := by
    cases hd : x.deadline with
    | none => rfl
    | some d => simpa using alive d hd
  simp [live, found, Option.filter, all]

theorem deadline_of_live {α : Type} {cell : Option (Cell α)} {x : Cell α}
    (h : live clock cell = some x) : cell = some x ∧ ∀ d ∈ x.deadline, clock < d := by
  obtain ⟨found, all⟩ := Option.filter_eq_some_iff.mp h
  refine ⟨found, fun d hd => ?_⟩
  rw [Option.mem_def.mp hd] at all
  simpa using all

theorem lt_deadline {d : Int} (h : c.deadline clock = some d) : clock < d := by
  have fresh : read clock (some ⟨(), c.deadline clock⟩) = some () := read_written ()
  unfold read at fresh
  obtain ⟨x, alive, -⟩ := Option.map_eq_some_iff.mp fresh
  obtain ⟨same, before⟩ := deadline_of_live alive
  obtain rfl := Option.some.inj same
  exact before d h

/-- A history that has just been pushed to is alive. -/
theorem entries_push : (h.push c clock scope key).entries clock =
    ltrim (key :: h.entries clock) 0 (c.historyMaxlen - 1) := by
  have alive : live clock (some (c.push clock h.cell key)) = some (c.push clock h.cell key) := by
    refine live_of_deadline rfl fun d hd => ?_
    cases own : c.deadline clock with
    | some d' =>
      obtain rfl : d' = d := by simpa [RedisStudioEventStore.push, own] using hd
      exact lt_deadline own
    | none =>
      have old : (live clock h.cell).bind Cell.deadline = some d := by
        simpa [RedisStudioEventStore.push, own] using hd
      obtain ⟨x, found, hx⟩ := Option.bind_eq_some_iff.mp old
      exact (deadline_of_live found).2 d hx
  simp only [entries, push, read, alive, Option.map_some, Option.getD_some]
  rfl

/-- What a push finds or adds is listed afterwards, or trimmed. -/
theorem holds_push {k : String} (mem : k ∈ key :: h.entries clock) :
    (h.push c clock scope key).Holds clock scope k := by
  obtain ⟨rest, split⟩ := ltrim_zero_append (key :: h.entries clock) (c.historyMaxlen - 1)
  unfold Holds
  rw [entries_push]
  rw [split] at mem
  rcases List.mem_append.mp mem with mem | mem
  · exact Or.inl mem
  · refine Or.inr (List.mem_append_right _ (List.mem_map_of_mem ?_))
    have dropped : (key :: h.entries clock).drop (c.push clock h.cell key).value.length = rest := by
      have value : (c.push clock h.cell key).value =
          ltrim (key :: h.entries clock) 0 (c.historyMaxlen - 1) := rfl
      rw [value]
      nth_rewrite 2 [split]
      exact List.drop_left
    exact dropped ▸ mem

theorem count_push {k : String} :
    ((h.push c clock scope key).entries clock).count k ≤ (key :: h.entries clock).count k := by
  obtain ⟨rest, split⟩ := ltrim_zero_append (key :: h.entries clock) (c.historyMaxlen - 1)
  rw [entries_push]
  nth_rewrite 2 [split]
  rw [List.count_append]
  exact Nat.le_add_right _ _

/-- The record of another entry is kept. -/
theorem trimmed_push {k scope' : String} (kept : (scope', k) ∈ h.trimmed)
    (ne : (scope', k) ≠ (scope, key)) : (scope', k) ∈ (h.push c clock scope key).trimmed :=
  List.mem_append_left _ (List.mem_filter.mpr ⟨kept, decide_eq_true ne⟩)

/-- A push puts off the expiry of the history. -/
theorem deadline_push (hd : ∀ hc, h.cell = some hc → hc.deadline.isSome = true →
      (c.deadline clock).isSome = true)
    (outlasts : ∀ d ∈ c.deadline clock, ∃ d' ∈ deadline, d' ≤ d) :
    ∀ d ∈ (c.push clock h.cell key).deadline, ∃ d' ∈ deadline, d' ≤ d := by
  intro d pushed
  cases own : c.deadline clock with
  | some d' =>
    obtain rfl : d' = d := by simpa [RedisStudioEventStore.push, own] using pushed
    exact outlasts d' own
  | none =>
    have old : (live clock h.cell).bind Cell.deadline = some d := by
      simpa [RedisStudioEventStore.push, own] using pushed
    obtain ⟨x, found, hx⟩ := Option.bind_eq_some_iff.mp old
    have timed := hd x (deadline_of_live found).1 (by rw [hx]; rfl)
    rw [own] at timed
    cases timed

end Push

end Shelf

/-- What holds of a history of the event, with its marker: `writing` says that an attempt has set
the marker and not pushed yet, `indexing` that it has pushed and not been indexed yet. -/
structure ShelfInv (c : RedisStudioEventStore) (clock : Int) (scope key : String)
    (marker : Option (Cell StudioControlPlaneEvent)) (writing indexing : Prop) (h : Shelf) :
    Prop where
  timed : ∀ hc, h.cell = some hc → hc.deadline.isSome = true → (c.deadline clock).isSome = true
  once : (h.entries clock).count key ≤ 1
  absent : writing → key ∉ h.entries clock
  listed : indexing → h.Holds clock scope key
  lasts : ¬writing → ∀ m, live clock marker = some m → h.Lasts m.deadline scope key

/-- Whatever is written now lives at least as long as the marker. -/
def Dated (c : RedisStudioEventStore) (clock : Int)
    (marker : Option (Cell StudioControlPlaneEvent)) : Prop :=
  ∀ m, marker = some m → ∀ d ∈ c.deadline clock, ∃ d' ∈ m.deadline, d' ≤ d

namespace ShelfInv

variable {c : RedisStudioEventStore} {clock now : Int} {scope key other : String}
  {marker : Option (Cell StudioControlPlaneEvent)} {writing indexing writing' indexing' : Prop}
  {h h' : Shelf}

/-- As long as the marker is there, the event is listed. -/
theorem holds_of_lasts {deadline : Option Int} (lasts : h.Lasts deadline scope key)
    (alive : ∀ d ∈ deadline, clock < d) : h.Holds clock scope key := by
  rcases lasts with trimmed | ⟨hc, found, mem, outlasts⟩
  · exact Or.inr trimmed
  · have here : live clock h.cell = some hc := by
      refine Shelf.live_of_deadline found fun d hd => ?_
      obtain ⟨d', hd', le⟩ := outlasts d hd
      exact (alive d' hd').trans_le le
    left
    simpa [Shelf.entries, read, here] using mem

theorem timed_push (inv : ShelfInv c clock scope key marker writing indexing h) :
    ∀ hc, (h.push c clock scope other).cell = some hc → hc.deadline.isSome = true →
      (c.deadline clock).isSome = true := by
  intro hc found timed
  obtain rfl := Option.some.inj found
  by_contra untimed
  have own : c.deadline clock = none := by simpa using untimed
  have old : ((live clock h.cell).bind Cell.deadline).isSome = true := by
    simpa [RedisStudioEventStore.push, own] using timed
  obtain ⟨d, hd⟩ := Option.isSome_iff_exists.mp old
  obtain ⟨x, alive, hx⟩ := Option.bind_eq_some_iff.mp hd
  exact untimed (inv.timed x (Shelf.deadline_of_live alive).1 (by rw [hx]; rfl))

/-- Another event is pushed to the history. -/
theorem pushOther (inv : ShelfInv c clock scope key marker writing indexing h)
    (dated : Dated c clock marker) (ne : key ≠ other) :
    ShelfInv c clock scope key marker writing indexing (h.push c clock scope other) := by
  have kept (holds : h.Holds clock scope key) :
      (h.push c clock scope other).Holds clock scope key := by
    rcases holds with mem | trimmed
    · exact Shelf.holds_push (List.mem_cons_of_mem _ mem)
    · exact Or.inr (Shelf.trimmed_push trimmed (by simp [ne]))
  have count : ((h.push c clock scope other).entries clock).count key ≤
      (other :: h.entries clock).count key := Shelf.count_push
  rw [List.count_cons_of_ne (Ne.symm ne)] at count
  refine ⟨inv.timed_push, count.trans inv.once, fun writing mem => ?_,
    fun indexing => kept (inv.listed indexing), fun idle m found => ?_⟩
  · have none' := List.count_eq_zero.mpr (inv.absent writing)
    have some' := List.count_pos_iff.mpr mem
    omega
  · obtain ⟨there, alive⟩ := Shelf.deadline_of_live found
    rcases kept (holds_of_lasts (inv.lasts idle m found) alive) with mem | trimmed
    · rw [Shelf.entries_push] at mem
      exact Or.inr ⟨_, rfl, mem, Shelf.deadline_push inv.timed (dated m there)⟩
    · exact Or.inl trimmed

/-- The attempt that has set the marker pushes the event. -/
theorem pushSelf (inv : ShelfInv c clock scope key marker writing indexing h)
    (dated : Dated c clock marker) (holder : writing) (pushed : ¬writing') :
    ShelfInv c clock scope key marker writing' indexing' (h.push c clock scope key) := by
  have holds : (h.push c clock scope key).Holds clock scope key :=
    Shelf.holds_push List.mem_cons_self
  have count : ((h.push c clock scope key).entries clock).count key ≤
      (key :: h.entries clock).count key := Shelf.count_push
  rw [List.count_cons_self, List.count_eq_zero.mpr (inv.absent holder)] at count
  refine ⟨inv.timed_push, count, fun writing => absurd writing pushed, fun _ => holds,
    fun _ m found => ?_⟩
  rcases holds with mem | trimmed
  · rw [Shelf.entries_push] at mem
    exact Or.inr ⟨_, rfl, mem,
      Shelf.deadline_push inv.timed (dated m (Shelf.deadline_of_live found).1)⟩
  · exact Or.inl trimmed

/-- The history is left alone. -/
theorem keep (inv : ShelfInv c clock scope key marker writing indexing h)
    (cell : h'.cell = h.cell) (trimmed : (scope, key) ∈ h.trimmed → (scope, key) ∈ h'.trimmed)
    (same : writing' ↔ writing) (fewer : indexing' → indexing) :
    ShelfInv c clock scope key marker writing' indexing' h' := by
  have entries : h'.entries clock = h.entries clock := by simp [Shelf.entries, cell]
  refine ⟨cell ▸ inv.timed, entries ▸ inv.once, fun writing => ?_, fun indexing => ?_,
    fun idle m found => ?_⟩
  · exact entries ▸ inv.absent (same.mp writing)
  · rcases inv.listed (fewer indexing) with mem | gone
    · exact Or.inl (entries ▸ mem)
    · exact Or.inr (trimmed gone)
  · rcases inv.lasts (fun writing => idle (same.mpr writing)) m found with gone | ⟨hc, found, rest⟩
    · exact Or.inl (trimmed gone)
    · exact Or.inr ⟨hc, cell ▸ found, rest⟩

/-- The marker is set while the history does not list the event. -/
theorem mark (inv : ShelfInv c clock scope key marker writing indexing h)
    (absent : key ∉ h.entries clock) (idle : ¬indexing') (holder : writing')
    (marker' : Option (Cell StudioControlPlaneEvent)) :
    ShelfInv c clock scope key marker' writing' indexing' h :=
  ⟨inv.timed, inv.once, fun _ => absent, fun indexing => absurd indexing idle,
    fun writing => absurd holder writing⟩

theorem entries_later (later : clock ≤ now) :
    h.entries now = h.entries clock ∨ h.entries now = [] := by
  unfold Shelf.entries
  by_cases kept : keeps now h.cell = true
  · exact Or.inl (by rw [read_of_keeps kept later])
  · right
    cases found : h.cell with
    | none => rfl
    | some x =>
      have gone : x.deadline.all (now < ·) = false := by simpa [keeps, found] using kept
      simp [read, live, Option.filter, gone]

/-- Time passes, and no history expires under an attempt that is being indexed. -/
theorem wait (inv : ShelfInv c clock scope key marker writing indexing h) (later : clock ≤ now)
    (kept : indexing → keeps now h.cell = true) :
    ShelfInv c now scope key marker writing indexing h := by
  refine ⟨fun hc found timed => ?_, ?_, fun writing mem => ?_, fun indexing => ?_,
    fun idle m found => ?_⟩
  · have := inv.timed hc found timed
    unfold RedisStudioEventStore.deadline at this ⊢
    simpa using this
  · rcases entries_later (h := h) later with same | none'
    · exact same ▸ inv.once
    · simp [none']
  · rcases entries_later (h := h) later with same | none'
    · exact inv.absent writing (same ▸ mem)
    · simp [none'] at mem
  · have same : h.entries now = h.entries clock := by
      simp only [Shelf.entries, read_of_keeps (kept indexing) later]
    rcases inv.listed indexing with mem | gone
    · exact Or.inl (same ▸ mem)
    · exact Or.inr gone
  · obtain ⟨there, alive⟩ := Shelf.deadline_of_live found
    exact inv.lasts idle m
      (Shelf.live_of_deadline there fun d hd => lt_of_le_of_lt later (alive d hd))

end ShelfInv

/-! ## Attempts -/

section Attempts

variable (c : StudioEventIngestService) (e : StudioEventEnvelope)

/-- An envelope that the store takes for the event. -/
def sameKey (e' : StudioEventEnvelope) : Bool :=
  c.eventStore.dedupeKey e' = c.eventStore.dedupeKey e

/-- The same event, pushed or pulled. -/
structure SameEvent (e e' : StudioEventEnvelope) : Prop where
  service : e'.serviceId = e.serviceId
  event : e'.event = e.event

/-- An attempt starts when the attempts before it have ended. -/
def oneByOne (s : Ingest) : IngestStep → Bool
  | .start _ e' => !sameKey c e e' ||
    s.ids.all fun m => (s.calls m).all fun call => !sameKey c e call.1 || call.2.ended
  | _ => true

def serviceShelf (s : Ingest) : Shelf := ⟨s.keys.serviceHistory e.serviceId, s.trimmedService⟩

def taskShelf (s : Ingest) : Shelf := ⟨s.keys.taskHistory e.taskScope, s.trimmedTask⟩

/-- No attempt that has set the marker fails in its pipeline or its index call. The marker does not
expire while a history lists the event, and no history expires while the event is indexed. -/
def undisturbed (s : Ingest) : IngestStep → Bool
  | .raise n =>
    match s.calls n with
    | some (e', .pipeline _ _) | some (e', .index) => !sameKey c e e'
    | _ => true
  | .await n =>
    match s.calls n with
    | some (e', .set _ _) =>
      !sameKey c e e' || (live s.clock (s.keys.events (c.eventStore.dedupeKey e))).isSome ||
        (c.eventStore.dedupeKey e ∉ (serviceShelf e s).entries s.clock &&
          c.eventStore.dedupeKey e ∉ (taskShelf e s).entries s.clock)
    | _ => true
  | .clock now => s.ids.all fun m =>
    match s.calls m with
    | some (e', .index) => !sameKey c e e' ||
      (keeps now (s.keys.serviceHistory e.serviceId) && keeps now (s.keys.taskHistory e.taskScope))
    | _ => true
  | _ => true

/-- The event is in its histories, unless it has been trimmed, and has been indexed. -/
structure Ingested (s : Ingest) : Prop where
  service : (serviceShelf e s).Holds s.clock e.serviceId (c.eventStore.dedupeKey e)
  task : (taskShelf e s).Holds s.clock e.taskScope (c.eventStore.dedupeKey e)
  indexed : c.searchIndexer = true → ∃ e' ∈ s.indexed, SameEvent e e'

/-- An attempt has set the marker and not pushed the event. -/
def Writing (s : Ingest) : Prop :=
  ∃ n e' r event, s.calls n = some (e', .pipeline r event) ∧ sameKey c e e' = true

/-- An attempt has pushed the event and not had it indexed. -/
def Indexing (s : Ingest) : Prop := ∃ n e', s.calls n = some (e', .index) ∧ sameKey c e e' = true

/-- The attempts are for the same event, one by one. -/
structure CallsInv (s : Ingest) : Prop where
  ids : ∀ {n call}, s.calls n = some call → n ∈ s.ids
  formed : ∀ {n e' r event}, s.calls n = some (e', .set r event) ∨
    s.calls n = some (e', .pipeline r event) →
      event.toStudioEventEnvelope = e' ∧ event.dedupeKey = c.eventStore.dedupeKey e'
  same : ∀ {n e' p}, s.calls n = some (e', p) → sameKey c e e' = true → SameEvent e e'
  alone : ∀ {n m e₁ e₂ p₁ p₂}, s.calls n = some (e₁, p₁) → s.calls m = some (e₂, p₂) →
    sameKey c e e₁ = true → sameKey c e e₂ = true → p₁.ended = false → p₂.ended = false → n = m

structure RetryInv (s : Ingest) : Prop extends CallsInv c e s where
  dated : Dated c.eventStore s.clock (s.keys.events (c.eventStore.dedupeKey e))
  service : ShelfInv c.eventStore s.clock e.serviceId (c.eventStore.dedupeKey e)
    (s.keys.events (c.eventStore.dedupeKey e)) (Writing c e s) (Indexing c e s) (serviceShelf e s)
  task : ShelfInv c.eventStore s.clock e.taskScope (c.eventStore.dedupeKey e)
    (s.keys.events (c.eventStore.dedupeKey e)) (Writing c e s) (Indexing c e s) (taskShelf e s)
  indexed : ¬Writing c e s → ¬Indexing c e s →
    (live s.clock (s.keys.events (c.eventStore.dedupeKey e))).isSome = true →
      c.searchIndexer = true → ∃ e' ∈ s.indexed, SameEvent e e'

end Attempts

section Step

variable {c : StudioEventIngestService} {e e' : StudioEventEnvelope} {s t : Ingest} {n : Nat}
  {p p' : Call}

def Call.writing : Call → Bool
  | .pipeline _ _ => true
  | _ => false

def Call.indexing : Call → Bool
  | .index => true
  | _ => false

theorem Call.ended_of_writing (h : p.writing = true) : p.ended = false := by
  cases p <;> first | rfl | cases h

theorem Call.ended_of_indexing (h : p.indexing = true) : p.ended = false := by
  cases p <;> first | rfl | cases h

theorem writing_iff : Writing c e s ↔
    ∃ n e' p, s.calls n = some (e', p) ∧ sameKey c e e' = true ∧ p.writing = true := by
  constructor
  · rintro ⟨n, e', r, event, here, same⟩
    exact ⟨n, e', _, here, same, rfl⟩
  · rintro ⟨n, e', p, here, same, writing⟩
    cases p with
    | pipeline r event => exact ⟨n, e', r, event, here, same⟩
    | _ => cases writing

theorem indexing_iff : Indexing c e s ↔
    ∃ n e' p, s.calls n = some (e', p) ∧ sameKey c e e' = true ∧ p.indexing = true := by
  constructor
  · rintro ⟨n, e', here, same⟩
    exact ⟨n, e', _, here, same, rfl⟩
  · rintro ⟨n, e', p, here, same, indexing⟩
    cases p with
    | index => exact ⟨n, e', here, same⟩
    | _ => cases indexing

/-- A call at which no other attempt can be is the only one to ask. -/
theorem CallsInv.exists_iff (inv : CallsInv c e s) (here : s.calls n = some (e', p))
    (same : sameKey c e e' = true) (going : p.ended = false) {f : Call → Bool}
    (unended : ∀ {p}, f p = true → p.ended = false) :
    (∃ m e₁ p₁, s.calls m = some (e₁, p₁) ∧ sameKey c e e₁ = true ∧ f p₁ = true) ↔
      f p = true := by
  constructor
  · rintro ⟨m, e₁, p₁, there, same₁, h⟩
    obtain rfl := inv.alone there here same₁ same (unended h) going
    obtain ⟨-, rfl⟩ := Prod.mk.inj (Option.some.inj (there.symm.trans here))
    exact h
  · exact fun h => ⟨n, e', p, here, same, h⟩

/-- A call moves on. -/
theorem CallsInv.move (inv : CallsInv c e s) (here : s.calls n = some (e', p))
    (calls : t.calls = Function.update s.calls n (some (e', p'))) (ids : t.ids = s.ids)
    (going : p.ended = false)
    (formed : ∀ r event, p' = .set r event ∨ p' = .pipeline r event →
      event.toStudioEventEnvelope = e' ∧ event.dedupeKey = c.eventStore.dedupeKey e') :
    CallsInv c e t := by
  have moved {m : Nat} {e₁ : StudioEventEnvelope} {p₁ : Call} (h : t.calls m = some (e₁, p₁)) :
      (m = n ∧ e₁ = e' ∧ p₁ = p') ∨ s.calls m = some (e₁, p₁) := by
    rw [calls] at h
    rcases update_some_cases h with ⟨rfl, same⟩ | ⟨-, same⟩
    · exact Or.inl ⟨rfl, Prod.mk.inj same⟩
    · exact Or.inr same
  -- an attempt that is going was going before
  have before {m : Nat} {e₁ : StudioEventEnvelope} {p₁ : Call} (h : t.calls m = some (e₁, p₁))
      (going₁ : p₁.ended = false) :
      ∃ p₀, s.calls m = some (e₁, p₀) ∧ p₀.ended = false := by
    rcases moved h with ⟨rfl, rfl, -⟩ | h
    · exact ⟨p, here, going⟩
    · exact ⟨p₁, h, going₁⟩
  refine ⟨fun {m call} h => ?_, fun {m e₁ r event} h => ?_, fun {m e₁ p₁} h same => ?_,
    fun h₁ h₂ same₁ same₂ going₁ going₂ => ?_⟩
  · rw [ids]
    obtain ⟨e₁, p₁⟩ := call
    rcases moved h with ⟨rfl, -, -⟩ | h
    · exact inv.ids here
    · exact inv.ids h
  · rcases h with h | h
    · rcases moved h with ⟨-, rfl, hp⟩ | h
      · exact formed r event (Or.inl hp.symm)
      · exact inv.formed (Or.inl h)
    · rcases moved h with ⟨-, rfl, hp⟩ | h
      · exact formed r event (Or.inr hp.symm)
      · exact inv.formed (Or.inr h)
  · rcases moved h with ⟨-, rfl, -⟩ | h
    · exact inv.same here same
    · exact inv.same h same
  · obtain ⟨p₁, h₁, going₁⟩ := before h₁ going₁
    obtain ⟨p₂, h₂, going₂⟩ := before h₂ going₂
    exact inv.alone h₁ h₂ same₁ same₂ going₁ going₂

/-- Where the attempts stand after one of them has moved. -/
theorem CallsInv.exists_move (inv : CallsInv c e s) (here : s.calls n = some (e', p))
    (calls : t.calls = Function.update s.calls n (some (e', p'))) (same : sameKey c e e' = true)
    (going : p.ended = false) {f : Call → Bool} (unended : ∀ {p}, f p = true → p.ended = false) :
    (∃ m e₁ p₁, t.calls m = some (e₁, p₁) ∧ sameKey c e e₁ = true ∧ f p₁ = true) ↔
      f p' = true := by
  constructor
  · rintro ⟨m, e₁, p₁, there, same₁, h⟩
    rw [calls] at there
    rcases update_some_cases there with ⟨-, moved⟩ | ⟨ne, there⟩
    · obtain ⟨-, rfl⟩ := Prod.mk.inj moved
      exact h
    · exact absurd (inv.alone there here same₁ same (unended h) going) ne
  · exact fun h => ⟨n, e', p', by rw [calls, Function.update_self], same, h⟩

/-- Where the attempts stand after a call of another event has moved. -/
theorem exists_move_other (calls : t.calls = Function.update s.calls n (some (e', p')))
    (here : s.calls n = some (e', p)) (other : sameKey c e e' = false) (f : Call → Bool) :
    (∃ m e₁ p₁, t.calls m = some (e₁, p₁) ∧ sameKey c e e₁ = true ∧ f p₁ = true) ↔
      ∃ m e₁ p₁, s.calls m = some (e₁, p₁) ∧ sameKey c e e₁ = true ∧ f p₁ = true := by
  constructor
  · rintro ⟨m, e₁, p₁, h, same, hf⟩
    rw [calls] at h
    rcases calls_update h with ⟨rfl, -⟩ | h
    · rw [other] at same
      cases same
    · exact ⟨m, e₁, p₁, h, same, hf⟩
  · rintro ⟨m, e₁, p₁, h, same, hf⟩
    have ne : m ≠ n := by
      rintro rfl
      obtain ⟨rfl, -⟩ := Prod.mk.inj (Option.some.inj (h.symm.trans here))
      rw [other] at same
      cases same
    exact ⟨m, e₁, p₁, by rw [calls, Function.update_of_ne ne, h], same, hf⟩

theorem CallsInv.start (inv : CallsInv c e s) (same : sameKey c e e' = true → SameEvent e e')
    (ok : oneByOne c e s (.start n e') = true) :
    CallsInv c e (StudioEventIngestService.move
      { s with ids := n :: s.ids, started := e' :: s.started } n e' .getService) := by
  have moved {m : Nat} {e₁ : StudioEventEnvelope} {p₁ : Call}
      (h : Function.update s.calls n (some (e', .getService)) m = some (e₁, p₁)) :
      (m = n ∧ e₁ = e' ∧ p₁ = .getService) ∨ s.calls m = some (e₁, p₁) := by
    rcases update_some_cases h with ⟨rfl, same⟩ | ⟨-, same⟩
    · exact Or.inl ⟨rfl, Prod.mk.inj same⟩
    · exact Or.inr same
  have ended {m : Nat} {e₁ : StudioEventEnvelope} {p₁ : Call} (h : s.calls m = some (e₁, p₁))
      (same' : sameKey c e e' = true) (same₁ : sameKey c e e₁ = true) : p₁.ended = true := by
    simp only [oneByOne, same', Bool.not_true, Bool.false_or] at ok
    simpa [h, same₁] using List.all_eq_true.mp ok m (inv.ids h)
  refine ⟨fun {m call} h => ?_, fun {m e₁ r event} h => ?_, fun {m e₁ p₁} h same₁ => ?_,
    fun {m₁ m₂ e₁ e₂ p₁ p₂} h₁ h₂ same₁ same₂ going₁ going₂ => ?_⟩
  · obtain ⟨e₁, p₁⟩ := call
    rcases moved h with ⟨rfl, -, -⟩ | h
    · exact List.mem_cons_self
    · exact List.mem_cons_of_mem _ (inv.ids h)
  · rcases h with h | h
    · rcases moved h with ⟨-, -, hp⟩ | h
      · cases hp
      · exact inv.formed (Or.inl h)
    · rcases moved h with ⟨-, -, hp⟩ | h
      · cases hp
      · exact inv.formed (Or.inr h)
  · rcases moved h with ⟨-, rfl, -⟩ | h
    · exact same same₁
    · exact inv.same h same₁
  · rcases moved h₁ with ⟨rfl, rfl, -⟩ | old₁
    · rcases moved h₂ with ⟨rfl, -, -⟩ | old₂
      · rfl
      · rw [ended old₂ same₁ same₂] at going₂
        cases going₂
    · rcases moved h₂ with ⟨rfl, rfl, -⟩ | old₂
      · rw [ended old₁ same₂ same₁] at going₁
        cases going₁
      · exact inv.alone old₁ old₂ same₁ same₂ going₁ going₂

/-- A step that changes none of the keys of the event, nor where its attempts stand. -/
theorem RetryInv.keep (inv : RetryInv c e s) (calls : CallsInv c e t) (clock : t.clock = s.clock)
    (events : t.keys.events (c.eventStore.dedupeKey e) = s.keys.events (c.eventStore.dedupeKey e))
    (service : serviceShelf e t = serviceShelf e s) (task : taskShelf e t = taskShelf e s)
    (indexed : ∀ e' ∈ s.indexed, e' ∈ t.indexed) (writing : Writing c e t ↔ Writing c e s)
    (indexing : Indexing c e t ↔ Indexing c e s) : RetryInv c e t := by
  refine ⟨calls, ?_, ?_, ?_, fun idle free found indexer => ?_⟩
  · rw [clock, events]
    exact inv.dated
  · rw [clock, events, service]
    exact inv.service.keep rfl id writing indexing.mp
  · rw [clock, events, task]
    exact inv.task.keep rfl id writing indexing.mp
  · rw [clock, events] at found
    obtain ⟨e', mem, same⟩ := inv.indexed (fun h => idle (writing.mpr h))
      (fun h => free (indexing.mpr h)) found indexer
    exact ⟨e', indexed e' mem, same⟩

/-- A call moves between places at which it has nothing to finish, or it is for another event. -/
theorem RetryInv.move (inv : RetryInv c e s) (here : s.calls n = some (e', p))
    (calls : t.calls = Function.update s.calls n (some (e', p'))) (ids : t.ids = s.ids)
    (going : p.ended = false)
    (formed : ∀ r event, p' = .set r event ∨ p' = .pipeline r event →
      event.toStudioEventEnvelope = e' ∧ event.dedupeKey = c.eventStore.dedupeKey e')
    (idle : sameKey c e e' = true →
      p.writing = false ∧ p.indexing = false ∧ p'.writing = false ∧ p'.indexing = false)
    (clock : t.clock = s.clock)
    (events : t.keys.events (c.eventStore.dedupeKey e) = s.keys.events (c.eventStore.dedupeKey e))
    (service : serviceShelf e t = serviceShelf e s) (task : taskShelf e t = taskShelf e s)
    (indexed : ∀ e' ∈ s.indexed, e' ∈ t.indexed) : RetryInv c e t := by
  refine inv.keep (inv.toCallsInv.move here calls ids going formed) clock events service task
    indexed ?_ ?_
  · rw [writing_iff, writing_iff]
    cases same : sameKey c e e' with
    | false => exact exists_move_other calls here same _
    | true =>
      rw [inv.exists_move here calls same going Call.ended_of_writing,
        inv.exists_iff here same going Call.ended_of_writing]
      simp [idle same]
  · rw [indexing_iff, indexing_iff]
    cases same : sameKey c e e' with
    | false => exact exists_move_other calls here same _
    | true =>
      rw [inv.exists_move here calls same going Call.ended_of_indexing,
        inv.exists_iff here same going Call.ended_of_indexing]
      simp [idle same]

/-- An attempt sets the marker. -/
theorem RetryInv.mark (inv : RetryInv c e s) {r : Latest} {event : StudioControlPlaneEvent}
    (here : s.calls n = some (e', .set r event))
    (absent : live s.clock (s.keys.events event.dedupeKey) = none)
    (ok : undisturbed c e s (.await n) = true) :
    RetryInv c e (StudioEventIngestService.move (c.setMarker s event) n e'
      (.pipeline r event)) := by
  obtain ⟨rfl, key⟩ := inv.formed (Or.inl here)
  have formed (r' : Latest) (event' : StudioControlPlaneEvent)
      (h : Call.pipeline r event = .set r' event' ∨ Call.pipeline r event = .pipeline r' event') :
      event'.toStudioEventEnvelope = event.toStudioEventEnvelope ∧
        event'.dedupeKey = c.eventStore.dedupeKey event.toStudioEventEnvelope := by
    rcases h with h | h
    · cases h
    · obtain ⟨-, rfl⟩ := Call.pipeline.inj h
      exact ⟨rfl, key⟩
  cases same : sameKey c e event.toStudioEventEnvelope with
  | false =>
    refine inv.move here rfl rfl rfl formed (fun h => ?_) rfl ?_ rfl rfl fun _ => id
    · rw [same] at h
      cases h
    · have other : c.eventStore.dedupeKey e ≠ event.dedupeKey := by
        rw [key]
        exact fun h => by simp [sameKey, h] at same
      exact Function.update_of_ne other _ _
  | true =>
    have key : event.dedupeKey = c.eventStore.dedupeKey e := by
      rw [key]
      simpa [sameKey] using same
    rw [key] at absent
    simp only [undisturbed, here, same, absent, Bool.not_true, Option.isSome_none, Bool.or_false,
      Bool.false_or, Bool.and_eq_true, decide_eq_true_eq] at ok
    have calls := inv.toCallsInv.move here rfl rfl rfl formed
      (t := StudioEventIngestService.move (c.setMarker s event) n _ (.pipeline r event))
    have writing := writing_iff.mpr ((inv.exists_move here rfl same rfl Call.ended_of_writing
      (t := StudioEventIngestService.move (c.setMarker s event) n _ (.pipeline r event))).mpr rfl)
    have idle : ¬Indexing c e (StudioEventIngestService.move (c.setMarker s event) n
        event.toStudioEventEnvelope (.pipeline r event)) := by
      rw [indexing_iff, inv.exists_move here rfl same rfl Call.ended_of_indexing]
      simp [Call.indexing]
    refine ⟨calls, ?_, inv.service.mark ok.1 idle writing _, inv.task.mark ok.2 idle writing _,
      fun h => absurd writing h⟩
    intro m found d hd
    have set : some (⟨event, c.eventStore.deadline s.clock⟩ : Cell StudioControlPlaneEvent) =
        some m := by
      rw [← found]
      simp [StudioEventIngestService.move, StudioEventIngestService.setMarker, key]
    obtain rfl := Option.some.inj set
    exact ⟨d, hd, le_rfl⟩

/-- The shelves after the pipeline of another event. -/
theorem ShelfInv.pipelineOther {k : RedisStudioEventStore} {clock : Int} {scope key : String}
    {marker : Option (Cell StudioControlPlaneEvent)} {writing indexing : Prop}
    {histories : String → Option (Cell (List String))} {trimmed : List (String × String)}
    {scope' other : String}
    (inv : ShelfInv k clock scope key marker writing indexing ⟨histories scope, trimmed⟩)
    (dated : Dated k clock marker) (ne : key ≠ other) :
    ShelfInv k clock scope key marker writing indexing
      ⟨Function.update histories scope' (some (k.push clock (histories scope') other)) scope,
        trim k clock (histories scope') scope' other trimmed⟩ := by
  by_cases here : scope = scope'
  · subst here
    rw [Function.update_self]
    exact inv.pushOther dated ne
  · rw [Function.update_of_ne here]
    refine inv.keep rfl (fun gone => ?_) Iff.rfl id
    exact List.mem_append_left _ (List.mem_filter.mpr ⟨gone, by simp [here]⟩)

theorem serviceShelf_pipeline {r : Latest} {event : StudioControlPlaneEvent}
    (key : event.dedupeKey = c.eventStore.dedupeKey e) (service : event.serviceId = e.serviceId) :
    serviceShelf e (StudioEventIngestService.move (c.runPipeline s r event) n e' p') =
      (serviceShelf e s).push c.eventStore s.clock e.serviceId (c.eventStore.dedupeKey e) := by
  simp [serviceShelf, Shelf.push, StudioEventIngestService.move,
    StudioEventIngestService.runPipeline, RedisStudioEventStore.pipeline, key, service]

theorem taskShelf_pipeline {r : Latest} {event : StudioControlPlaneEvent}
    (key : event.dedupeKey = c.eventStore.dedupeKey e) (scope : event.taskScope = e.taskScope) :
    taskShelf e (StudioEventIngestService.move (c.runPipeline s r event) n e' p') =
      (taskShelf e s).push c.eventStore s.clock e.taskScope (c.eventStore.dedupeKey e) := by
  simp [taskShelf, Shelf.push, StudioEventIngestService.move,
    StudioEventIngestService.runPipeline, RedisStudioEventStore.pipeline, key, scope]

/-- An event with the key of the event goes to its histories. -/
theorem CallsInv.scopes (inv : CallsInv c e s) {r : Latest} {event : StudioControlPlaneEvent}
    (here : s.calls n = some (e', .pipeline r event)) (same : sameKey c e e' = true) :
    event.dedupeKey = c.eventStore.dedupeKey e ∧ event.serviceId = e.serviceId ∧
      event.taskScope = e.taskScope := by
  obtain ⟨rfl, key⟩ := inv.formed (Or.inr here)
  obtain ⟨service, task⟩ := inv.same here same
  refine ⟨?_, service, by simp [StudioEventEnvelope.taskScope, service, task]⟩
  rw [key]
  simpa [sameKey] using same

/-- The pipeline of a call. -/
theorem RetryInv.pipeline (inv : RetryInv c e s) {r : Latest} {event : StudioControlPlaneEvent}
    (here : s.calls n = some (e', .pipeline r event)) :
    RetryInv c e (StudioEventIngestService.move (c.runPipeline s r event) n e'
      (if c.searchIndexer then .index else .inserted)) := by
  obtain ⟨rfl, key⟩ := inv.formed (Or.inr here)
  set p' : Call := if c.searchIndexer then .index else .inserted with hp'
  have moved : p'.writing = false ∧ p'.indexing = c.searchIndexer := by
    rw [hp']
    cases c.searchIndexer <;> exact ⟨rfl, rfl⟩
  have formed (r' : Latest) (event' : StudioControlPlaneEvent)
      (h : p' = .set r' event' ∨ p' = .pipeline r' event') :
      event'.toStudioEventEnvelope = event.toStudioEventEnvelope ∧
        event'.dedupeKey = c.eventStore.dedupeKey event.toStudioEventEnvelope := by
    rw [hp'] at h
    split at h <;> simp at h
  have calls := inv.toCallsInv.move here rfl rfl rfl formed
    (t := StudioEventIngestService.move (c.runPipeline s r event) n _ p')
  cases same : sameKey c e event.toStudioEventEnvelope with
  | false =>
    have other : c.eventStore.dedupeKey e ≠ event.dedupeKey := by
      rw [key]
      exact fun h => by simp [sameKey, h] at same
    have writing : Writing c e (StudioEventIngestService.move (c.runPipeline s r event) n
        event.toStudioEventEnvelope p') ↔ Writing c e s := by
      rw [writing_iff, writing_iff]
      exact exists_move_other rfl here same _
    have indexing : Indexing c e (StudioEventIngestService.move (c.runPipeline s r event) n
        event.toStudioEventEnvelope p') ↔ Indexing c e s := by
      rw [indexing_iff, indexing_iff]
      exact exists_move_other rfl here same _
    refine ⟨calls, inv.dated, ?_, ?_, fun idle free => inv.indexed (fun h => idle (writing.mpr h))
      fun h => free (indexing.mpr h)⟩
    · exact (inv.service.pipelineOther inv.dated other).keep rfl id writing indexing.mp
    · exact (inv.task.pipelineOther inv.dated other).keep rfl id writing indexing.mp
  | true =>
    obtain ⟨key, service, scope⟩ := inv.scopes here same
    have holder : Writing c e s := ⟨n, _, r, event, here, same⟩
    have written : ¬Writing c e (StudioEventIngestService.move (c.runPipeline s r event) n
        event.toStudioEventEnvelope p') := by
      rw [writing_iff, inv.exists_move here rfl same rfl Call.ended_of_writing]
      simp [moved.1]
    refine ⟨calls, inv.dated, ?_, ?_, fun _ free _ indexer => absurd ?_ free⟩
    · rw [serviceShelf_pipeline key service]
      exact inv.service.pushSelf inv.dated holder written
    · rw [taskShelf_pipeline key scope]
      exact inv.task.pushSelf inv.dated holder written
    · rw [indexing_iff, inv.exists_move here rfl same rfl Call.ended_of_indexing, moved.2]
      exact indexer

/-- The index call of a call. -/
theorem RetryInv.index (inv : RetryInv c e s) (here : s.calls n = some (e', .index)) :
    RetryInv c e (StudioEventIngestService.move { s with indexed := s.indexed ++ [e'] } n e'
      .inserted) := by
  have calls := inv.toCallsInv.move here rfl rfl rfl (fun r event h => by simp at h)
    (t := StudioEventIngestService.move { s with indexed := s.indexed ++ [e'] } n e' .inserted)
  cases same : sameKey c e e' with
  | false =>
    refine inv.move here rfl rfl rfl (fun r event h => by simp at h) (fun h => ?_) rfl rfl rfl rfl
      fun _ => List.mem_append_left _
    rw [same] at h
    cases h
  | true =>
    have pushed : ¬Writing c e s := by
      rw [writing_iff, inv.exists_iff here same rfl Call.ended_of_writing]
      simp [Call.writing]
    have idle : ¬Writing c e (StudioEventIngestService.move
        { s with indexed := s.indexed ++ [e'] } n e' .inserted) := by
      rw [writing_iff, inv.exists_move here rfl same rfl Call.ended_of_writing]
      simp [Call.writing]
    have free : ¬Indexing c e (StudioEventIngestService.move
        { s with indexed := s.indexed ++ [e'] } n e' .inserted) := by
      rw [indexing_iff, inv.exists_move here rfl same rfl Call.ended_of_indexing]
      simp [Call.indexing]
    have alike := iff_of_false idle pushed
    refine ⟨calls, inv.dated, inv.service.keep rfl id alike fun h => absurd h free,
      inv.task.keep rfl id alike fun h => absurd h free, fun _ _ _ _ => ?_⟩
    exact ⟨e', List.mem_append_right _ List.mem_cons_self, inv.same here same⟩

theorem RetryInv.wait (inv : RetryInv c e s) {now : Int} (later : s.clock ≤ now)
    (ok : undisturbed c e s (.clock now) = true) : RetryInv c e { s with clock := now } := by
  have kept (indexing : Indexing c e s) : keeps now (s.keys.serviceHistory e.serviceId) = true ∧
      keeps now (s.keys.taskHistory e.taskScope) = true := by
    obtain ⟨m, e', here, same⟩ := indexing
    simpa [here, same] using List.all_eq_true.mp ok m (inv.ids here)
  refine ⟨⟨inv.ids, inv.formed, inv.same, inv.alone⟩, ?_,
    inv.service.wait later fun h => (kept h).1, inv.task.wait later fun h => (kept h).2,
    fun idle free found => inv.indexed idle free ?_⟩
  · intro m found d hd
    obtain ⟨ttl, httl, rfl⟩ := Option.map_eq_some_iff.mp hd
    obtain ⟨d', hd', le⟩ := inv.dated m found (s.clock + (ttl : Int) * 1000000)
      (Option.map_eq_some_iff.mpr ⟨ttl, httl, rfl⟩)
    refine ⟨d', hd', ?_⟩
    show d' ≤ now + (ttl : Int) * 1000000
    omega
  · obtain ⟨m, found⟩ := Option.isSome_iff_exists.mp found
    obtain ⟨there, alive⟩ := Shelf.deadline_of_live found
    rw [Shelf.live_of_deadline there fun d hd => lt_of_le_of_lt later (alive d hd)]
    rfl

theorem RetryInv.start (inv : RetryInv c e s) (new : s.calls n = none)
    (same : sameKey c e e' = true → SameEvent e e') (ok : oneByOne c e s (.start n e') = true) :
    RetryInv c e (StudioEventIngestService.move
      { s with ids := n :: s.ids, started := e' :: s.started } n e' .getService) := by
  have stand (f : Call → Bool) (first : f .getService = false) :
      (∃ m e₁ p₁, Function.update s.calls n (some (e', .getService)) m = some (e₁, p₁) ∧
        sameKey c e e₁ = true ∧ f p₁ = true) ↔
      ∃ m e₁ p₁, s.calls m = some (e₁, p₁) ∧ sameKey c e e₁ = true ∧ f p₁ = true := by
    constructor
    · rintro ⟨m, e₁, p₁, h, same₁, hf⟩
      rcases calls_update h with ⟨-, rfl⟩ | h
      · rw [first] at hf
        cases hf
      · exact ⟨m, e₁, p₁, h, same₁, hf⟩
    · rintro ⟨m, e₁, p₁, h, same₁, hf⟩
      have ne : m ≠ n := by
        rintro rfl
        rw [new] at h
        cases h
      exact ⟨m, e₁, p₁, by rw [Function.update_of_ne ne, h], same₁, hf⟩
  refine inv.keep (inv.toCallsInv.start same ok) rfl rfl rfl rfl (fun _ => id) ?_ ?_
  · rw [writing_iff, writing_iff]
    exact stand _ rfl
  · rw [indexing_iff, indexing_iff]
    exact stand _ rfl

theorem RetryInv.step (inv : RetryInv c e s) {l : IngestStep}
    (same : ∀ n e', l = .start n e' → sameKey c e e' = true → SameEvent e e')
    (one : oneByOne c e s l = true) (ok : undisturbed c e s l = true)
    (taken : next c s l = some t) : RetryInv c e t := by
  cases taken_of_next taken with
  | clock later => exact inv.wait later ok
  | start e' new => exact inv.start new (same _ _ rfl) one
  | getService here =>
    refine inv.move here rfl rfl rfl (fun r event h => ?_) (fun _ => ?_) rfl rfl rfl rfl fun _ => id
    · split at h <;> simp at h
    · split <;> exact ⟨rfl, rfl, rfl, rfl⟩
  | mget here =>
    refine inv.move here rfl rfl rfl (fun r event h => ?_) (fun _ => ⟨rfl, rfl, rfl, rfl⟩) rfl rfl
      rfl rfl fun _ => id
    rcases h with h | h
    · obtain ⟨-, rfl⟩ := Call.set.inj h
      exact ⟨rfl, rfl⟩
    · cases h
  | duplicate here found =>
    exact inv.move here rfl rfl rfl (fun r event h => by simp at h)
      (fun _ => ⟨rfl, rfl, rfl, rfl⟩) rfl rfl rfl rfl fun _ => id
  | marked here absent => exact inv.mark here absent ok
  | pipeline here => exact inv.pipeline here
  | index here => exact inv.index here
  | @raise n e' p here going =>
    refine inv.move here rfl rfl going (fun r event h => by simp at h) (fun same => ?_) rfl rfl rfl
      rfl fun _ => id
    simp only [undisturbed, here] at ok
    cases p with
    | pipeline r event => simp [same] at ok
    | index => simp [same] at ok
    | _ => exact ⟨rfl, rfl, rfl, rfl⟩

/-- An attempt that completes leaves the event ingested. -/
theorem RetryInv.ingested (inv : RetryInv c e s) (registered : c.registered e.serviceId = true)
    (taken : next c s (.await n) = some t) (here' : t.calls n = some (e', p'))
    (same : sameKey c e e' = true) (ended : p'.ended = true) : Ingested c e t := by
  have at' {s' : Ingest} {e₁ : StudioEventEnvelope} {p₁ : Call}
      (h : (StudioEventIngestService.move s' n e₁ p₁).calls n = some (e', p')) :
      e₁ = e' ∧ p₁ = p' := by
    simpa [StudioEventIngestService.move] using h
  cases taken_of_next taken with
  | getService here =>
    obtain ⟨rfl, rfl⟩ := at' here'
    rw [(inv.same here same).service, registered] at ended
    cases ended
  | mget here =>
    obtain ⟨-, rfl⟩ := at' here'
    cases ended
  | @duplicate _ _ r event m here found =>
    obtain ⟨rfl, rfl⟩ := at' here'
    have idle : ¬Writing c e s := by
      rw [writing_iff, inv.exists_iff here same rfl Call.ended_of_writing]
      simp [Call.writing]
    have free : ¬Indexing c e s := by
      rw [indexing_iff, inv.exists_iff here same rfl Call.ended_of_indexing]
      simp [Call.indexing]
    have key : event.dedupeKey = c.eventStore.dedupeKey e := by
      rw [(inv.formed (Or.inl here)).2]
      simpa [sameKey] using same
    rw [key] at found
    have alive := (Shelf.deadline_of_live found).2
    exact ⟨ShelfInv.holds_of_lasts (inv.service.lasts idle m found) alive,
      ShelfInv.holds_of_lasts (inv.task.lasts idle m found) alive,
      inv.indexed idle free (by rw [found]; rfl)⟩
  | marked here absent =>
    obtain ⟨-, rfl⟩ := at' here'
    cases ended
  | pipeline here =>
    obtain ⟨rfl, rfl⟩ := at' here'
    obtain ⟨key, service, scope⟩ := inv.scopes here same
    refine ⟨?_, ?_, fun indexer => ?_⟩
    · rw [serviceShelf_pipeline key service]
      exact Shelf.holds_push List.mem_cons_self
    · rw [taskShelf_pipeline key scope]
      exact Shelf.holds_push List.mem_cons_self
    · rw [indexer] at ended
      cases ended
  | index here =>
    obtain ⟨rfl, -⟩ := at' here'
    have listed : Indexing c e s := ⟨n, _, here, same⟩
    exact ⟨inv.service.listed listed, inv.task.listed listed,
      fun _ => ⟨_, List.mem_append_right _ List.mem_cons_self, inv.same here same⟩⟩

end Step

theorem RetryInv.initial {c : StudioEventIngestService} {e : StudioEventEnvelope} (clock : Int) :
    RetryInv c e { clock := clock } := by
  have idle : ¬Writing c e { clock := clock } := by simp [Writing]
  have free : ¬Indexing c e { clock := clock } := by simp [Indexing]
  refine ⟨⟨?_, ?_, ?_, ?_⟩, ?_, ⟨?_, ?_, ?_, ?_, ?_⟩, ⟨?_, ?_, ?_, ?_, ?_⟩, ?_⟩
  all_goals simp [Dated, serviceShelf, taskShelf, Shelf.entries, read, live, idle, free]

/-- In every run of attempts for an event, one by one and undisturbed, an attempt that completes
leaves the event ingested, and no history lists it twice. -/
theorem ingestion_is_retry_safe (c : StudioEventIngestService) (e : StudioEventEnvelope)
    (clock : Int) (ls : List IngestStep) (s : Ingest)
    (registered : c.registered e.serviceId = true)
    (one : (machine c).Along (fun s l => oneByOne c e s l = true) { clock := clock } ls)
    (same : ∀ n e', .start n e' ∈ ls → sameKey c e e' = true → SameEvent e e')
    (ok : (machine c).Along (fun s l => undisturbed c e s l = true) { clock := clock } ls)
    (run : (machine c).exec { clock := clock } ls = some s) :
    ((serviceShelf e s).entries s.clock).count (c.eventStore.dedupeKey e) ≤ 1 ∧
      ((taskShelf e s).entries s.clock).count (c.eventStore.dedupeKey e) ≤ 1 ∧
      ∀ n t e' p, next c s (.await n) = some t → t.calls n = some (e', p) →
        sameKey c e e' = true → p.ended = true → Ingested c e t := by
  have starts : (machine c).Along
      (fun _ l => ∀ n e', l = .start n e' → sameKey c e e' = true → SameEvent e e')
      { clock := clock } ls := by
    refine Machine.Along.of_forall (fun l hl => ?_) _
    rintro n e' rfl
    exact same n e' hl
  have inv : RetryInv c e s :=
    Machine.invariant_along
      (fun s l t inv both taken => inv.step both.1 both.2.1 both.2.2 taken) (.initial clock)
      (starts.and (one.and ok)) run
  exact ⟨inv.service.once, inv.task.once, fun n t e' p taken here' same' ended =>
    inv.ingested registered taken here' same' ended⟩

def indexedIngest : StudioEventIngestService := { exampleIngest with searchIndexer := true }

/-- The `MGET` of the first attempt raises, the second attempt completes, the third finds the
marker. -/
def secondAttempt : List IngestStep :=
  [.start 0 (taskEvent "a" tenth), .await 0, .raise 0, .start 1 (taskEvent "a" tenth), .await 1,
    .await 1, .await 1, .await 1, .await 1, .start 2 (taskEvent "a" tenth), .await 2, .await 2]

theorem ingestion_is_retry_safe_secondAttempt :
    ∃ s, (machine indexedIngest).exec { clock := 0 } secondAttempt = some s ∧
      s.indexed.length = 1 ∧ (next indexedIngest s (.await 2)).isSome = true ∧
      ((serviceShelf (taskEvent "a" tenth) s).entries s.clock).count "billing:status:a" ≤ 1 ∧
      ((taskShelf (taskEvent "a" tenth) s).entries s.clock).count "billing:status:a" ≤ 1 ∧
      ∀ n t e' p, next indexedIngest s (.await n) = some t → t.calls n = some (e', p) →
        sameKey indexedIngest (taskEvent "a" tenth) e' = true → p.ended = true →
          Ingested indexedIngest (taskEvent "a" tenth) t := by
  have one : (machine indexedIngest).Along
      (fun s l => oneByOne indexedIngest (taskEvent "a" tenth) s l = true) { clock := 0 }
      secondAttempt := by
    decide +kernel
  have ok : (machine indexedIngest).Along
      (fun s l => undisturbed indexedIngest (taskEvent "a" tenth) s l = true) { clock := 0 }
      secondAttempt := by
    decide +kernel
  have same (n : Nat) (e' : StudioEventEnvelope) (start : .start n e' ∈ secondAttempt) :
      e' = taskEvent "a" tenth := by
    simp only [secondAttempt, List.mem_cons, IngestStep.start.injEq, reduceCtorEq, false_or,
      List.not_mem_nil, or_false] at start
    rcases start with start | start | start <;> exact start.2
  have facts : ((machine indexedIngest).exec { clock := 0 } secondAttempt).map
      (fun s => (s.indexed.length, (next indexedIngest s (.await 2)).isSome)) =
      some (1, true) := by
    decide +kernel
  obtain ⟨s, run, facts⟩ := Option.map_eq_some_iff.mp facts
  obtain ⟨indexed, completes⟩ := Prod.mk.inj facts
  exact ⟨s, run, indexed, completes, ingestion_is_retry_safe indexedIngest (taskEvent "a" tenth) 0
    secondAttempt s rfl one (fun n e' start _ => same n e' start ▸ ⟨rfl, rfl⟩) ok run⟩

/-- The pipeline of the first attempt raises. -/
def lostPush : List IngestStep :=
  [.start 0 (taskEvent "a" tenth), .await 0, .await 0, .await 0, .raise 0,
    .start 1 (taskEvent "a" tenth), .await 1, .await 1]

theorem lost_push_is_never_repeated :
    ∃ s t, (machine indexedIngest).Along
        (fun s l => oneByOne indexedIngest (taskEvent "a" tenth) s l = true) { clock := 0 }
        lostPush ∧
      (machine indexedIngest).exec { clock := 0 } lostPush = some s ∧
      next indexedIngest s (.await 1) = some t ∧
      (t.calls 1).map (fun call => call.2.ended) = some true ∧
      (serviceShelf (taskEvent "a" tenth) t).entries t.clock = [] ∧
      ¬Ingested indexedIngest (taskEvent "a" tenth) t := by
  have one : (machine indexedIngest).Along
      (fun s l => oneByOne indexedIngest (taskEvent "a" tenth) s l = true) { clock := 0 }
      lostPush := by
    decide +kernel
  have facts : (((machine indexedIngest).exec { clock := 0 } lostPush).bind
      fun s => next indexedIngest s (.await 1)).map
      (fun t => ((t.calls 1).map (fun call => call.2.ended), t.indexed.length,
        (serviceShelf (taskEvent "a" tenth) t).entries t.clock)) =
      some (some true, 0, []) := by
    decide +kernel
  obtain ⟨t, run, facts⟩ := Option.map_eq_some_iff.mp facts
  obtain ⟨s, reached, completed⟩ := Option.bind_eq_some_iff.mp run
  obtain ⟨ended, facts⟩ := Prod.mk.inj facts
  obtain ⟨unindexed, unlisted⟩ := Prod.mk.inj facts
  refine ⟨s, t, one, reached, completed, ended, unlisted, fun ingested => ?_⟩
  obtain ⟨e', mem, -⟩ := ingested.indexed rfl
  rw [List.length_eq_zero_iff.mp unindexed] at mem
  cases mem

end Relayna.Studio.Events
