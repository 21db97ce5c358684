import Relayna.Dlq.RecordPages

/-!
# A listing while records are added

`list_records` and `list_failed_task_records` take a chunk of ids at an offset and then its records;
other calls may add records before each of these commands. An id that has been added above the
offset moves those below it down, and what has been taken already is taken again.
-/
namespace Relayna.Dlq

open Chunks Pages Transition

namespace RecordStore

/-- The id is new to the store. -/
def Fresh (s : RecordStore) (r : StoredRecord) : Prop :=
  r.dlqId ∉ s.ids ∧ r.dlqId ∉ s.index.entries.map Prod.fst ∧ (s.records r.dlqId).isNone

instance (s : RecordStore) (r : StoredRecord) : Decidable (s.Fresh r) :=
  inferInstanceAs (Decidable (_ ∧ _ ∧ _))

end RecordStore

/-- A record is added, or the listing makes its next round trip. -/
inductive ListingStep where
  | add (r : StoredRecord)
  | next

/-- What a listing reads, where it begins and what it has then; `key` and `accept` say what of it
can come into the page. -/
structure Listing (ρ σ : Type) where
  reader : Reader String ρ σ
  ids : RecordStore → List String
  load : RecordStore → String → Option ρ
  start : RecordStore → Nat
  first : σ
  key : ρ → String
  accept : ρ → Bool

/-- The listing has been called, or is reading. -/
structure ListingState (σ : Type) where
  store : RecordStore
  reading : Option (Reading String σ)

variable {ρ σ : Type}

namespace Listing

/-- Nothing else is written. -/
def machine (c : Listing ρ σ) : Machine (ListingState σ) ListingStep where
  next s l := match l with
    | .add r => if fresh : s.store.Fresh r then some ⟨s.store.add r fresh.1, s.reading⟩ else none
    | .next => match s.reading with
      | none => some ⟨s.store, some (.keys (c.start s.store) c.first)⟩
      | some reading => (c.reader.next (c.ids s.store) (c.load s.store) reading).map fun next =>
        ⟨s.store, some next⟩

/-- While nobody else writes, the round trips come to one reading. -/
theorem alone (c : Listing ρ σ) (s : RecordStore) : ∃ n,
    c.machine.exec ⟨s, none⟩ (List.replicate n .next) = some ⟨s, some (.done
      (c.reader.read (c.ids s) (c.load s) (c.start s) c.first))⟩ := by
  obtain ⟨n, hn⟩ := Reader.next_read (r := c.reader) (c.ids s) (c.load s) (c.start s) c.first
  have trips : ∀ (n : Nat) (reading : Reading String σ),
      c.machine.exec ⟨s, some reading⟩ (List.replicate n .next) =
        ((fun t => t.bind (c.reader.next (c.ids s) (c.load s)))^[n] (some reading)).map
          fun next => ⟨s, some next⟩ := by
    intro n
    induction n with
    | zero => exact fun _ => rfl
    | succ n ih =>
      intro reading
      rw [List.replicate_succ, Machine.exec_cons, Function.iterate_succ_apply]
      change ((c.reader.next (c.ids s) (c.load s) reading).map _).bind _ = _
      rw [Option.bind_some]
      cases c.reader.next (c.ids s) (c.load s) reading with
      | none =>
        have stays : ∀ n, (fun t => t.bind (c.reader.next (c.ids s) (c.load s)))^[n] none =
            none := fun n => Function.iterate_fixed rfl n
        rw [stays]
        rfl
      | some next => exact ih next
  refine ⟨n + 1, ?_⟩
  rw [List.replicate_succ, Machine.exec_cons]
  change (some _).bind _ = _
  rw [Option.bind_some, trips, hn]
  rfl

/-- Adding a record leaves what is listed where it is, one after the other. -/
structure Stable (c : Listing ρ σ) : Prop where
  nodup : ∀ s, (c.ids s).Nodup
  named : ∀ s id r, c.load s id = some r → c.key r = id
  sub : ∀ s r (fresh : s.Fresh r), (c.ids s).Sublist (c.ids (s.add r fresh.1))
  load : ∀ s r (fresh : s.Fresh r), ∀ id ∈ c.ids s, c.load (s.add r fresh.1) id = c.load s id

/-- The record was there when the listing was called, and it passes the filters. -/
def Wanted (c : Listing ρ σ) (s₀ : RecordStore) (id : String) : Prop :=
  id ∈ c.ids s₀ ∧ (accepted c.accept (c.load s₀) id).isSome

/-- What was there is still there. -/
structure Grown (c : Listing ρ σ) (s₀ s : RecordStore) : Prop where
  sub : (c.ids s₀).Sublist (c.ids s)
  load : ∀ id ∈ c.ids s₀, c.load s id = c.load s₀ id

variable {c : Listing ρ σ} {s₀ s : RecordStore}

theorem Grown.refl : c.Grown s s := ⟨List.Sublist.refl _, fun _ _ => rfl⟩

theorem Grown.add (h : c.Grown s₀ s) (stable : c.Stable) {r : StoredRecord} (fresh : s.Fresh r) :
    c.Grown s₀ (s.add r fresh.1) :=
  ⟨h.sub.trans (stable.sub s r fresh), fun id hid =>
    (stable.load s r fresh id (h.sub.subset hid)).trans (h.load id hid)⟩

theorem Grown.known (h : c.Grown s₀ s) (id : String) (wanted : c.Wanted s₀ id) : id ∈ c.ids s :=
  h.sub.subset wanted.1

/-- What a part of a chunk brings to the page. -/
theorem Grown.scanned (h : c.Grown s₀ s) (stable : c.Stable) (got pre : List String)
    {keys part post : List String} (split : keys = pre ++ part ++ post)
    (first : pre ≠ [] → got = []) :
    Scanned (c.Wanted s₀) got keys
      ((part.filterMap (accepted c.accept (c.load s))).map c.key) post := by
  refine ⟨pre, part, split, first, map_accepted_sublist (stable.named s) part, ?_⟩
  rintro id mem ⟨old, passes⟩
  obtain ⟨r, here⟩ := Option.isSome_iff_exists.mp passes
  have now : accepted c.accept (c.load s) id = some r := by
    rw [← here, accepted, accepted, h.load id old]
  have name := stable.named s id r (Option.filter_eq_some_iff.mp now).1
  exact List.mem_map.mpr ⟨r, List.mem_filterMap.mpr ⟨id, mem, now⟩, name⟩

end Listing

/-- The page has no id twice, and nothing that was there all the time and passes the filters is
missing from it between two of its ids. -/
structure OnePage (c : Listing ρ σ) (s₀ s : RecordStore) (page : List String) : Prop where
  once : page.Nodup
  complete : ∀ id, c.Wanted s₀ id → ∀ u ∈ page, ∀ v ∈ page, Before (c.ids s) u id →
    Before (c.ids s) id v → id ∈ page

theorem OnePage.of_gathered {c : Listing ρ σ} {s₀ s : RecordStore} {page : List String}
    (stable : c.Stable) (h : Gathered (c.Wanted s₀) (c.ids s) page) : OnePage c s₀ s page :=
  ⟨h.sub.nodup (stable.nodup s), h.between⟩

/-! ## `list_records` -/

def recordListing (f : RecordFilters) (state : Option (Option DLQRecordState)) (limit : Int)
    (cursor : Option String) : Listing StoredRecord (List StoredRecord) where
  reader := f.reader state (pageSize limit)
  ids := RecordStore.ids
  load := RecordStore.records
  start s := s.startIndex cursor
  first := []
  key r := r.dlqId
  accept := f.accepts state

section Records

variable {f : RecordFilters} {state : Option (Option DLQRecordState)} {limit : Int}
  {cursor : Option String}

theorem recordListing_stable : (recordListing f state limit cursor).Stable where
  nodup s := s.nodup
  named s := s.named
  sub s r fresh := List.sublist_cons_self r.dlqId s.ids
  load _ _ fresh _ old := RecordStore.add_records fresh.1 old

/-- When a chunk is taken, the page is complete or all of it still stands above the offset. -/
def SteadyRecords (limit : Int) (s : ListingState (List StoredRecord)) (l : ListingStep) : Prop :=
  ∀ offset items, l = .next → s.reading = some (.keys offset items) →
    pageSize limit ≤ items.length ∨ ∀ r ∈ items, r.dlqId ∈ s.store.ids.take offset

/-- What is held at each point of the listing. -/
def RecordsHeld (c : Listing StoredRecord (List StoredRecord)) (size : Nat) (s₀ s : RecordStore) :
    Option (Reading String (List StoredRecord)) → Prop
  | none => True
  | some (.keys offset items) => items.length ≤ size ∧
    Held size (c.Wanted s₀) s.ids offset (items.map (·.dlqId))
  | some (.entries offset keys items) => items.length ≤ size ∧
    Loading size (c.Wanted s₀) s.ids offset keys (items.map (·.dlqId))
  | some (.done items) => Gathered (c.Wanted s₀) s.ids ((items.map (·.dlqId)).take size)

variable {s₀ s : RecordStore}

theorem RecordsHeld.add {reading : Option (Reading String (List StoredRecord))}
    (h : RecordsHeld (recordListing f state limit cursor) (pageSize limit) s₀ s reading)
    (grown : (recordListing f state limit cursor).Grown s₀ s) {r : StoredRecord}
    (fresh : s.Fresh r) :
    RecordsHeld (recordListing f state limit cursor) (pageSize limit) s₀ (s.add r fresh.1)
      reading := by
  have sub : s.ids.Sublist (s.add r fresh.1).ids := List.sublist_cons_self r.dlqId s.ids
  have nodup := (s.add r fresh.1).nodup
  match reading with
  | none => exact h
  | some (.keys offset items) => exact ⟨h.1, h.2.grow grown.known sub nodup⟩
  | some (.entries offset keys items) => exact ⟨h.1, h.2.grow grown.known sub nodup⟩
  | some (.done items) => exact h.grow grown.known sub nodup

/-- The rule for a round trip of `list_records`. -/
theorem RecordsHeld.trip {reading next : Reading String (List StoredRecord)}
    (h : RecordsHeld (recordListing f state limit cursor) (pageSize limit) s₀ s (some reading))
    (grown : (recordListing f state limit cursor).Grown s₀ s)
    (steady : ∀ offset items, reading = .keys offset items →
      pageSize limit ≤ items.length ∨ ∀ r ∈ items, r.dlqId ∈ s.ids.take offset)
    (step : (f.reader state (pageSize limit)).next s.ids s.records reading = some next) :
    RecordsHeld (recordListing f state limit cursor) (pageSize limit) s₀ s (some next) := by
  cases reading with
  | keys offset items =>
    obtain ⟨room, held⟩ := h
    obtain rfl := Option.some.inj step
    split
    · exact held.page
    · refine ⟨room, held.load (by rwa [List.length_map]) s.nodup _ ?_⟩
      rw [List.length_map]
      refine (steady offset items rfl).imp_right fun above u hu => ?_
      obtain ⟨r, hr, rfl⟩ := List.mem_map.mp hu
      exact above r hr
  | entries offset keys items =>
    obtain ⟨room, loading⟩ := h
    obtain rfl := Option.some.inj step
    obtain ⟨part, post, more, split, taken, all, -, stopped⟩ :=
      @collector_take _ _ (f.accepts state) (pageSize limit) _
        (chunkSize_pos (pageSize limit)) s.records keys items room
    have scan := grown.scanned recordListing_stable (items.map (·.dlqId)) [] split
      (fun ne => absurd rfl ne)
    have both : (items ++ more).map (·.dlqId) = items.map (·.dlqId) ++ more.map (·.dlqId) :=
      List.map_append
    have held : Held (pageSize limit) ((recordListing f state limit cursor).Wanted s₀) s.ids
        (offset + keys.length) ((items ++ more).map (·.dlqId)) := by
      rw [both, taken]
      refine loading _ post scan fun ne => ?_
      have more_ := stopped ne
      rw [← List.length_map (·.dlqId), both, taken] at more_
      exact more_
    have filled : (f.reader state (pageSize limit)).take s.records keys items = items ++ more := all
    rw [filled]
    split
    · exact held.page
    · next unfinished =>
      rw [Bool.or_eq_true, not_or] at unfinished
      exact ⟨by simpa [RecordFilters.reader, collector] using unfinished.1, held⟩
  | done items => cases step

theorem RecordsHeld.next {a b : ListingState (List StoredRecord)} {l : ListingStep}
    (h : (recordListing f state limit cursor).Grown s₀ a.store ∧
      RecordsHeld (recordListing f state limit cursor) (pageSize limit) s₀ a.store a.reading)
    (steady : SteadyRecords limit a l)
    (step : (recordListing f state limit cursor).machine.next a l = some b) :
    (recordListing f state limit cursor).Grown s₀ b.store ∧
      RecordsHeld (recordListing f state limit cursor) (pageSize limit) s₀ b.store b.reading := by
  obtain ⟨grown, held⟩ := h
  cases l with
  | add r =>
    simp only [Listing.machine] at step
    split at step
    · next fresh =>
      obtain rfl := Option.some.inj step
      exact ⟨grown.add recordListing_stable fresh, held.add grown fresh⟩
    · cases step
  | next =>
    simp only [Listing.machine] at step
    split at step
    · obtain rfl := Option.some.inj step
      exact ⟨grown, Nat.zero_le _, .nil⟩
    · next reading here =>
      obtain ⟨after, trip, rfl⟩ := Option.map_eq_some_iff.mp step
      rw [here] at held
      refine ⟨grown, held.trip grown (fun offset items same => ?_) trip⟩
      exact steady offset items rfl (here.trans (congrArg some same))

theorem list_records_one_page {ls : List ListingStep} {items : List StoredRecord}
    (along : (recordListing f state limit cursor).machine.Along (SteadyRecords limit) ⟨s₀, none⟩ ls)
    (run : (recordListing f state limit cursor).machine.exec ⟨s₀, none⟩ ls =
      some ⟨s, some (.done items)⟩) :
    OnePage (recordListing f state limit cursor) s₀ s
      ((cutPage (·.dlqId) (pageSize limit) items).1.map (·.dlqId)) := by
  have start : (recordListing f state limit cursor).Grown s₀ s₀ ∧
      RecordsHeld (recordListing f state limit cursor) (pageSize limit) s₀ s₀ none :=
    ⟨.refl, trivial⟩
  have held := (Machine.invariant_along (I := fun a : ListingState (List StoredRecord) =>
      (recordListing f state limit cursor).Grown s₀ a.store ∧
        RecordsHeld (recordListing f state limit cursor) (pageSize limit) s₀ a.store a.reading)
    (fun _ _ _ h steady step => RecordsHeld.next h steady step) start along run).2
  have page : ((cutPage (fun r : StoredRecord => r.dlqId) (pageSize limit) items).1.map
      (·.dlqId)) = (items.map (·.dlqId)).take (pageSize limit) := by
    unfold cutPage
    split
    · exact List.map_take
    · rw [List.take_of_length_le (by rw [List.length_map]; omega)]
  rw [page]
  exact .of_gathered recordListing_stable held

end Records

end Relayna.Dlq
