import Relayna.Studio.Outbox

/-!
# Every inserted event is streamed

While an entry is undelivered, and no open transaction has published it, some relay still has to
publish it. An insert that commits with such an entry on both channels is streamed after it; one
that finds an entry that was delivered before is not.
-/
namespace Relayna.Studio.Outbox

open Python Contracts Transition Events Observability

variable {c : PostgresStudioEventStore} {batchSize : Nat}

/-- The event was published on the channel after it was inserted. -/
def Published (s : Db) (i : Insertion) (channel : String) : Prop :=
  ∃ p ∈ s.published.drop i.publishedBefore,
    p.channel = channel ∧ p.payload.dedupeKey = i.event.dedupeKey

/-- The outbox has an undelivered entry for the event on the channel. -/
def Pending (s : Db) (channel key : String) : Prop :=
  ∃ e ∈ s.entries, e.2.channel = channel ∧ e.2.dedupeKey = key ∧ e.2.deliveredAt = none

/-- … and no open transaction has published it. -/
def Unsent (s : Db) (channel key : String) : Prop :=
  ∃ e ∈ s.entries, e.2.channel = channel ∧ e.2.dedupeKey = key ∧ e.2.deliveredAt = none ∧
    s.sent e.1 = false

instance (s : Db) (channel key : String) : Decidable (Unsent s channel key) :=
  inferInstanceAs (Decidable (∃ e ∈ _, _))

/-- When an insert commits, each of its channels has an entry that it inserted, or one that some
relay still has to publish. -/
def Tx.Fresh (c : PostgresStudioEventStore) (s : Db) : Tx → Prop
  | .outboxInserted row entries => ∀ channel ∈ c.channels row.event.toStudioEventEnvelope,
      (∃ e ∈ entries, e.2.channel = channel) ∨ Unsent s channel row.event.dedupeKey
  | _ => True

def Fresh (c : PostgresStudioEventStore) (s : Db) : Step → Prop
  | .statement n _ => ∀ tx ∈ s.txs[n]?, tx.Fresh c s
  | _ => True

instance (s : Db) : (tx : Tx) → Decidable (tx.Fresh c s)
  | .outboxInserted .. => inferInstanceAs (Decidable (∀ channel ∈ _, _))
  | .insert .. | .locked .. | .selected _ | .eventInserted _ | .relayStarted | .relay ..
  | .published .. | .prune _ | .eventsPruned .. | .outboxPruned .. | .ended _ =>
    inferInstanceAs (Decidable True)

instance (s : Db) : (l : Step) → Decidable (Fresh c s l)
  | .statement .. => inferInstanceAs (Decidable (∀ tx ∈ _, _))
  | .insertEvent .. | .relayOnce | .pruneExpired _ | .publishRaises .. | .rollback _ =>
    inferInstanceAs (Decidable True)

theorem Db.sent_eq_false {s : Db} {id : Nat} :
    s.sent id = false ↔ ∀ tx ∈ s.txs, id ∉ tx.sent := by
  simp [Db.sent]

theorem sent_set {s t : Db} {n id : Nat} {tx' : Tx} (h : s.sent id = false)
    (ht : t.txs = s.txs.set n tx') (new : id ∉ tx'.sent) : t.sent id = false := by
  rw [Db.sent_eq_false] at h ⊢
  intro tx htx
  rw [ht] at htx
  obtain htx | rfl := List.mem_or_eq_of_mem_set htx
  · exact h tx htx
  · exact new

theorem sent_false_of {s : Db} {n id : Nat} {tx : Tx} (h : s.sent id = false)
    (hn : s.txs[n]? = some tx) : id ∉ tx.sent :=
  Db.sent_eq_false.mp h tx (List.mem_of_getElem? hn)

/-- An entry that a relay still has to publish stays one, until a relay publishes it. -/
theorem Moves.unsent {s t : Db} {n id : Nat} {tx : Tx} {r : Entry} (h : s.Sound)
    (hn : s.txs[n]? = some tx) (move : Moves s n tx t) (hr : s.outbox id = some r)
    (pending : r.deliveredAt = none) (unsent : s.sent id = false) :
    (∃ r', t.outbox id = some r' ∧ r'.Same r ∧ r'.deliveredAt = none ∧ t.sent id = false) ∨
      ∃ p, t.published = s.published ++ [p] ∧ p.channel = r.channel ∧
        p.payload.dedupeKey = r.dedupeKey := by
  have ok := h.ok n tx hn
  have before : id ∉ tx.sent := sent_false_of unsent hn
  cases move with
  | quiet tx' nextId sent =>
    exact Or.inl ⟨r, hr, .refl _, pending, sent_set unsent rfl fun hid => before (sent id hid)⟩
  | published row todo done =>
    by_cases hid : id = row.1
    · subst hid
      obtain ⟨r', hr', -, same⟩ := ok.batch row List.mem_cons_self
      obtain rfl : r' = r := Option.some.inj (hr'.symm.trans hr)
      refine Or.inr ⟨_, rfl, same.channel, ?_⟩
      rw [same.payload, (h.entry _ r' hr).2]
    · refine Or.inl ⟨r, hr, .refl _, pending, sent_set unsent rfl fun sent => ?_⟩
      exact before ((List.mem_cons.mp sent).resolve_left hid)
  | inserted row entries =>
    have absent : entries.lookup id = none := by
      refine lookup_eq_none_of_not_mem fun hid => ?_
      obtain ⟨e, he, rfl⟩ := List.mem_map.mp hid
      rw [(ok.new e he).1] at hr
      cases hr
    refine Or.inl ⟨r, ?_, .refl _, pending, sent_set unsent rfl (by simp [Tx.sent])⟩
    simpa [absent] using hr
  | relayed done result =>
    have unsent' : (s.moved n (.ended result)).sent id = false :=
      sent_set unsent rfl (by simp [Tx.sent])
    cases hl : done.lookup id with
    | none => exact Or.inl ⟨r, by simpa [hl] using hr, .refl _, pending, unsent'⟩
    | some marked =>
      have mem := mem_of_lookup hl
      have undelivered : marked.deliveredAt = none := by
        by_contra delivered
        refine before (List.mem_map.mpr ⟨(id, marked), List.mem_filter.mpr ⟨mem, ?_⟩, rfl⟩)
        exact Option.isSome_iff_ne_none.mpr delivered
      obtain ⟨r', hr', -, same⟩ := ok.batch (id, marked) mem
      obtain rfl : r' = r := Option.some.inj (hr'.symm.trans hr)
      exact Or.inl ⟨marked, by simp [hl], same, undelivered, unsent'⟩
  | pruned deleted ids result events =>
    have kept : id ∉ ids := by
      intro hid
      obtain ⟨r', hr', delivered⟩ := ok.deleted id hid
      obtain rfl : r' = r := Option.some.inj (hr'.symm.trans hr)
      simp [pending] at delivered
    refine Or.inl ⟨r, by simpa [kept] using hr, .refl _, pending, ?_⟩
    exact sent_set unsent rfl (by simp [Tx.sent])

theorem Moves.published_append {s t : Db} {n : Nat} {tx : Tx} (move : Moves s n tx t) :
    ∃ ps, t.published = s.published ++ ps := by
  cases move with
  | published row todo done => exact ⟨_, rfl⟩
  | _ => exact ⟨[], by simp [Db.moved]⟩

/-- The event was published, or some relay still has to publish it. -/
def Streams (s : Db) (i : Insertion) (channel : String) : Prop :=
  Published s i channel ∨ Unsent s channel i.event.dedupeKey

theorem Published.append {s t : Db} {i : Insertion} {channel : String} (h : Published s i channel)
    {ps : List Publication} (more : t.published = s.published ++ ps) : Published t i channel := by
  obtain ⟨p, hp, rest⟩ := h
  refine ⟨p, ?_, rest⟩
  rw [more, List.drop_append]
  exact List.mem_append_left _ hp

theorem Streams.moves {s t : Db} {n : Nat} {tx : Tx} {i : Insertion} {channel : String}
    (h : s.Sound) (ht : t.Sound) (hn : s.txs[n]? = some tx) (move : Moves s n tx t)
    (before : i.publishedBefore ≤ s.published.length) (streams : Streams s i channel) :
    Streams t i channel := by
  obtain published | ⟨e, listed, hc, hk, pending, unsent⟩ := streams
  · obtain ⟨ps, hps⟩ := move.published_append
    exact Or.inl (published.append hps)
  · obtain ⟨r', hr', same, pending', unsent'⟩ | ⟨p, hp, hpc, hpk⟩ :=
      move.unsent h hn (Db.mem_entries.mp listed).2 pending unsent
    · refine Or.inr ⟨(e.1, r'), Db.mem_entries.mpr ⟨(ht.entry _ r' hr').1, hr'⟩, ?_, ?_, pending',
        unsent'⟩
      · rw [same.channel, hc]
      · rw [same.dedupeKey, hk]
    · refine Or.inl ⟨p, ?_, hpc.trans hc, hpk.trans hk⟩
      rw [hp, List.drop_append_of_le_length before]
      exact List.mem_append_right _ (List.mem_singleton_self p)

/-- An insert that commits with an entry on the channel. -/
theorem Unsent.insert {s : Db} {n : Nat} {row : EventRow} {entries : List (Nat × Entry)}
    (h : s.Sound) (hn : s.txs[n]? = some (.outboxInserted row entries)) {t : Db}
    (ht : t.Sound)
    (htx : t.txs = s.txs.set n (.ended (.inserted true)))
    (hout : t.outbox = fun id => (entries.lookup id).or (s.outbox id)) {e : Nat × Entry}
    (he : e ∈ entries) : Unsent t e.2.channel row.event.dedupeKey := by
  have ok := h.ok n _ hn
  obtain ⟨-, -, row', now, channel, same, new⟩ := ok.new e he
  obtain rfl : row = row' := Option.some.inj same
  have found : t.outbox e.1 = some e.2 := by
    have added : entries.lookup e.1 = some e.2 := lookup_of_mem ok.newIds he
    simp only [hout, added, Option.some_or]
  refine ⟨e, Db.mem_entries.mpr ⟨(ht.entry _ _ found).1, found⟩, rfl, by rw [new]; rfl,
    by rw [new]; rfl, ?_⟩
  rw [Db.sent_eq_false]
  intro tx mem sent
  rw [htx] at mem
  obtain ⟨m, hm⟩ := List.getElem?_of_mem mem
  obtain ⟨-, rfl⟩ | ⟨hne, hm⟩ := set_some_cases hm
  · simp [Tx.sent] at sent
  · have mine : e.1 ∈ (Tx.outboxInserted row entries).locks :=
      Tx.mem_locks.mpr (Or.inr (Or.inr (List.mem_map_of_mem he)))
    exact hne (h.exclusive m n tx _ e.1 hm hn (Tx.sent_subset sent) mine)

/-- Whatever was inserted is streamed on both of its channels. -/
def AllStream (c : PostgresStudioEventStore) (s : Db) : Prop :=
  ∀ i ∈ s.insertions, ∀ channel ∈ c.channels i.event.toStudioEventEnvelope, Streams s i channel

theorem AllStream.next {s t : Db} {l : Step} (h : s.Sound) (all : AllStream c s)
    (fresh : Fresh c s l) (hl : next c batchSize s l = some t) : AllStream c t := by
  have ht := h.next hl
  obtain ⟨tx, idle, rfl⟩ | ⟨n, tx, hn, move, stated⟩ := next_moves h hl
  · intro i hi channel hc
    obtain published | ⟨e, listed, he, hk, pending, unsent⟩ := all i hi channel hc
    · exact Or.inl published
    · refine Or.inr ⟨e, listed, he, hk, pending, ?_⟩
      rw [Db.sent_eq_false] at unsent ⊢
      intro other mem
      obtain mem | mem := List.mem_append.mp mem
      · exact unsent other mem
      · simp [List.mem_singleton.mp mem, idle]
  · have old : ∀ i ∈ s.insertions, ∀ channel ∈ c.channels i.event.toStudioEventEnvelope,
        Streams t i channel := fun i hi channel hc =>
      (all i hi channel hc).moves h ht hn move (h.before i hi)
    cases move with
    | inserted row entries =>
      intro i hi channel hc
      obtain hi | hi := List.mem_append.mp hi
      · exact old i hi channel hc
      · obtain rfl := List.mem_singleton.mp hi
        obtain ⟨now, rfl⟩ | same := stated row entries rfl
        · obtain ⟨e, he, rfl⟩ | unsent := fresh _ hn channel hc
          · exact Or.inr (.insert h hn ht rfl rfl he)
          · -- The entry is from an earlier insert, and is still to be published.
            have now' : Streams s ⟨row.event, s.published.length⟩ channel := Or.inr unsent
            exact now'.moves h ht hn (.inserted row entries) le_rfl
        · exact absurd (congrArg List.length same) (by simp)
    | _ => exact old

/-- An entry becomes delivered only by the commit of a relay that has published it. -/
def DeliveredByRelay (s t : Db) (id : Nat) (r : Entry) : Prop :=
  ∃ (n : Nat) (done : List (Nat × Entry)) (result : Result), s.txs[n]? = some (.relay [] done) ∧
    t.txs[n]? = some (.ended result) ∧
      ∃ p ∈ s.published, p.relay = n ∧ p.id = id ∧ p.channel = r.channel ∧ p.payload = r.payload

theorem deliveredByRelay {s t : Db} {l : Step} (h : s.Sound) (hl : next c batchSize s l = some t)
    {id : Nat} {r : Entry} (hr : t.outbox id = some r) (delivered : r.deliveredAt.isSome)
    (undelivered : ∀ q, s.outbox id = some q → q.deliveredAt = none) :
    DeliveredByRelay s t id r := by
  have unchanged : s.outbox id ≠ some r := by
    intro same
    simp [undelivered r same] at delivered
  obtain ⟨tx, -, rfl⟩ | ⟨n, tx, hn, move, -⟩ := next_moves h hl
  · exact absurd hr unchanged
  have ok := h.ok n tx hn
  cases move with
  | quiet | published => exact absurd hr unchanged
  | inserted row entries =>
    cases hl : entries.lookup id with
    | none => exact absurd (by simpa [hl] using hr) unchanged
    | some added =>
      obtain rfl : added = r := by simpa [hl] using hr
      obtain ⟨-, -, row', now, channel, -, rfl⟩ := ok.new (id, added) (mem_of_lookup hl)
      cases delivered
  | relayed done result =>
    cases hl : done.lookup id with
    | none => exact absurd (by simpa [hl] using hr) unchanged
    | some marked =>
      obtain rfl : marked = r := by simpa [hl] using hr
      have mem := mem_of_lookup hl
      obtain ⟨q, hq, -, same⟩ := ok.batch (id, marked) mem
      have sent : id ∈ (Tx.relay [] done).sent :=
        List.mem_map.mpr ⟨(id, marked), List.mem_filter.mpr ⟨mem, delivered⟩, rfl⟩
      obtain ⟨p, hp, relay, row, q', hq', channel, payload⟩ := ok.sent id sent
      obtain rfl : q = q' := Option.some.inj (hq.symm.trans hq')
      refine ⟨n, done, result, hn, ?_, p, hp, relay, row, channel.trans same.channel.symm,
        payload.trans same.payload.symm⟩
      exact List.getElem?_set_self (List.getElem?_eq_some_iff.mp hn).1
  | pruned deleted ids result events =>
    by_cases hid : id ∈ ids
    · simp [hid] at hr
    · exact absurd (by simpa [hid] using hr) unchanged

theorem sound_empty : ({} : Db).Sound where
  ok _ _ h := by simp at h
  exclusive _ _ _ _ _ h := by simp at h
  entry _ _ h := nomatch h
  before _ h := nomatch h

theorem run_sound {s : Db} {ls : List Step} (run : (machine c batchSize).exec {} ls = some s) :
    s.Sound :=
  (machine c batchSize).invariant (fun _ _ _ h hl => h.next hl) sound_empty run

theorem run_allStream {s : Db} {ls : List Step}
    (fresh : (machine c batchSize).Along (Fresh c) {} ls)
    (run : (machine c batchSize).exec {} ls = some s) : AllStream c s := by
  refine ((machine c batchSize).invariant_along (I := fun s => s.Sound ∧ AllStream c s)
    (fun s l t ⟨h, all⟩ ok hl => ⟨h.next hl, all.next h ok hl⟩) ⟨sound_empty, ?_⟩ fresh run).2
  exact fun _ h => nomatch h

theorem inserted_event_streamed (c : PostgresStudioEventStore) (batchSize : Nat) (ls : List Step)
    (s : Db) (run : (machine c batchSize).exec {} ls = some s) :
    ((machine c batchSize).Along (Fresh c) {} ls → ∀ i ∈ s.insertions,
      ∀ channel ∈ c.channels i.event.toStudioEventEnvelope,
        Published s i channel ∨ Pending s channel i.event.dedupeKey) ∧
    (∀ l t id r, next c batchSize s l = some t → t.outbox id = some r → r.deliveredAt.isSome →
      (∀ q, s.outbox id = some q → q.deliveredAt = none) → DeliveredByRelay s t id r) ∧
    ∀ (n m : Nat) (tx tx' : Tx) (id : Nat), s.txs[n]? = some tx → s.txs[m]? = some tx' →
      id ∈ tx.batch.map (·.1) → id ∈ tx'.batch.map (·.1) → n = m := by
  have h := run_sound run
  refine ⟨fun fresh i hi channel hc => ?_, fun l t id r hl => deliveredByRelay h hl, ?_⟩
  · obtain published | ⟨e, listed, he, hk, pending, -⟩ := run_allStream fresh run i hi channel hc
    · exact Or.inl published
    · exact Or.inr ⟨e, listed, he, hk, pending⟩
  · intro n m tx tx' id hn hm hid hid'
    exact h.exclusive n m tx tx' id hn hm (Tx.mem_locks.mpr (Or.inl hid))
      (Tx.mem_locks.mpr (Or.inl hid'))

/-! ## Two runs -/

theorem cursor_ne : "1" ≠ "" := by decide

def studioStore : PostgresStudioEventStore where
  events := ⟨plainText, fun _ => none, some 86400, 5000⟩
  channelPrefix := "studio:events"

def someEvent : StudioEventEnvelope where
  serviceId := "svc"
  ingestMethod := .pull
  event := ⟨"1", cursor_ne, "t", "done", .status, none, none, some "e", none, none, []⟩

def day : Int := 86400 * 1000000

/-- The event is inserted, published on both channels and marked. -/
def insertedAndRelayed : List Step :=
  .insertEvent someEvent 0 :: List.replicate 5 (.statement 0 0) ++
    .relayOnce :: List.replicate 6 (.statement 1 1)

/-- The event expires after a day and is inserted again; its outbox entries stay for a week. -/
def insertedAgain : List Step :=
  insertedAndRelayed ++
    .pruneExpired day :: List.replicate 3 (.statement 2 day) ++
    .insertEvent someEvent day :: List.replicate 5 (.statement 3 day) ++
    .pruneExpired (8 * day) :: List.replicate 3 (.statement 4 (8 * day))

instance (s : Db) (i : Insertion) (channel : String) : Decidable (Published s i channel) :=
  inferInstanceAs (Decidable (∃ p ∈ _, _))

/-- The first publish of the relay succeeds, the second raises. -/
def halfRelayed : List Step :=
  .insertEvent someEvent 0 :: List.replicate 5 (.statement 0 0) ++
    .relayOnce :: List.replicate 3 (.statement 1 1) ++
    .publishRaises 1 "down" :: List.replicate 2 (.statement 1 1)

theorem half_relayed_event_streamed :
    ∃ s, (machine studioStore 100).exec {} halfRelayed = some s ∧
      (machine studioStore 100).Along (Fresh studioStore) {} halfRelayed ∧
      s.insertions.map (fun i => (studioStore.channels i.event.toStudioEventEnvelope).map
        fun channel => decide (Published s i channel)) = [[true, false]] ∧
      ∀ i ∈ s.insertions, ∀ channel ∈ studioStore.channels i.event.toStudioEventEnvelope,
        Published s i channel ∨ Pending s channel i.event.dedupeKey := by
  have once : ((machine studioStore 100).exec {} halfRelayed).map (fun s =>
      s.insertions.map fun i => (studioStore.channels i.event.toStudioEventEnvelope).map
        fun channel => decide (Published s i channel)) = some [[true, false]] := by decide
  have fresh : (machine studioStore 100).Along (Fresh studioStore) {} halfRelayed := by decide
  obtain ⟨s, hs, outcomes⟩ := Option.map_eq_some_iff.mp once
  exact ⟨s, hs, fresh, outcomes, (inserted_event_streamed studioStore 100 _ s hs).1 fresh⟩

/-- The second call returned `True`, nothing was published after it, and its entries are gone. -/
def Lost (s : Db) : Prop :=
  ∃ i ∈ s.insertions, ∃ channel ∈ studioStore.channels i.event.toStudioEventEnvelope,
    ¬ Published s i channel ∧
      ∀ e ∈ s.entries, e.2.channel = channel → e.2.dedupeKey ≠ i.event.dedupeKey

instance (s : Db) : Decidable (Lost s) := inferInstanceAs (Decidable (∃ i ∈ _, ∃ channel ∈ _, _))

theorem reinserted_event_lost :
    ∃ s, (machine studioStore 100).exec {} insertedAgain = some s ∧ Lost s := by
  have lost : ((machine studioStore 100).exec {} insertedAgain).map
      (fun s => decide (Lost s)) = some true := by decide
  obtain ⟨s, hs, hl⟩ := Option.map_eq_some_iff.mp lost
  exact ⟨s, hs, of_decide_eq_true hl⟩

end Relayna.Studio.Outbox
