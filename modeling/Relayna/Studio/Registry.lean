import Relayna.Contracts.Transport
import Relayna.Foundation.Transition

/-!
# The service registry in Redis

A service has three entries: its record, its membership in the set of all services, and the key
of its environment and base URL, which holds its id. `create`, `update` and `delete` change them
one command after another. `create` reserves the first and the third and takes them back if it
cannot go on; `update` looks whether the new key is free and overwrites it later.

Calls run concurrently and any command may raise. What a call does to its own service never
touches what the registry says about another one, as long as the key that an update moves to
stays free: `Apart` says when two open calls leave each other alone.
-/
namespace Relayna.Studio.Registry

open Python Contracts Transition

inductive ServiceStatus
  | registered | healthy | unavailable | disabled
  deriving DecidableEq, Repr

structure ServiceRecord where
  serviceId : String
  name : String
  baseUrl : String
  environment : String
  tags : List String
  authMode : String
  status : ServiceStatus
  capabilities : Option (Fields Value)
  lastSeenAt : Option Int
  logConfig : Option (Fields Value)
  metricsConfig : Option (Fields Value)
  traceConfig : Option (Fields Value)

/-- What `_env_url_key` adds to its fixed part. -/
def ServiceRecord.envUrlKey (r : ServiceRecord) : String := r.environment ++ ":" ++ r.baseUrl

/-- The keys `by-id:…`, `by-env-url:…` and the set `all`. -/
structure Keys where
  records : String → Option ServiceRecord := fun _ => none
  owners : String → Option String := fun _ => none
  all : String → Bool := fun _ => false

namespace Keys

def setRecord (g : Keys) (id : String) (r : Option ServiceRecord) : Keys :=
  { g with records := Function.update g.records id r }

def setOwner (g : Keys) (key : String) (id : Option String) : Keys :=
  { g with owners := Function.update g.owners key id }

def setListed (g : Keys) (id : String) (listed : Bool) : Keys :=
  { g with all := Function.update g.all id listed }

end Keys

/-- The command that a call awaits. The callers of `update` pass a record with the same id. -/
inductive Stage where
  | createSet (r : ServiceRecord)
  | createSetOwner (r : ServiceRecord)
  /-- The key of the environment and base URL is taken. -/
  | createDelete (r : ServiceRecord)
  | createAdd (r : ServiceRecord)
  /-- `SADD` has raised. -/
  | createUndo (r : ServiceRecord)
  | updateGet (r : ServiceRecord)
  | updateGetOwner (r existing : ServiceRecord)
  | updateSet (r existing : ServiceRecord)
  | updateAdd (r existing : ServiceRecord)
  | updateSetOwner (r existing : ServiceRecord)
  | updateDeleteOwner (r existing : ServiceRecord)
  | deleteGet (id : String)
  | deleteRecord (id : String) (existing : ServiceRecord)
  | deleteOwner (id : String) (existing : ServiceRecord)
  | deleteRemove (id : String)
  | returned
  | raised

inductive Operation where
  | create (r : ServiceRecord)
  | update (r : ServiceRecord)
  | delete (id : String)

def Operation.stage : Operation → Stage
  | .create r => .createSet r
  | .update r => .updateGet r
  | .delete id => .deleteGet id

/-- Run the command. -/
def Stage.command (g : Keys) : Stage → Keys × Stage
  | .createSet r =>
    match g.records r.serviceId with
    | some _ => (g, .raised)
    | none => (g.setRecord r.serviceId (some r), .createSetOwner r)
  | .createSetOwner r =>
    match g.owners r.envUrlKey with
    | some _ => (g, .createDelete r)
    | none => (g.setOwner r.envUrlKey (some r.serviceId), .createAdd r)
  | .createDelete r => (g.setRecord r.serviceId none, .raised)
  | .createAdd r => (g.setListed r.serviceId true, .returned)
  | .createUndo r => ((g.setRecord r.serviceId none).setOwner r.envUrlKey none, .raised)
  | .updateGet r =>
    match g.records r.serviceId with
    | some existing => (g, .updateGetOwner r existing)
    | none => (g, .raised)
  | .updateGetOwner r existing =>
    if (g.owners r.envUrlKey).all (· = r.serviceId) then (g, .updateSet r existing)
    else (g, .raised)
  | .updateSet r existing => (g.setRecord r.serviceId (some r), .updateAdd r existing)
  | .updateAdd r existing => (g.setListed r.serviceId true, .updateSetOwner r existing)
  | .updateSetOwner r existing =>
    (g.setOwner r.envUrlKey (some r.serviceId),
      if existing.envUrlKey = r.envUrlKey then .returned else .updateDeleteOwner r existing)
  | .updateDeleteOwner _ existing => (g.setOwner existing.envUrlKey none, .returned)
  | .deleteGet id =>
    match g.records id with
    | some existing => (g, .deleteRecord id existing)
    | none => (g, .raised)
  | .deleteRecord id existing => (g.setRecord id none, .deleteOwner id existing)
  | .deleteOwner id existing => (g.setOwner existing.envUrlKey none, .deleteRemove id)
  | .deleteRemove id => (g.setListed id false, .returned)
  | .returned => (g, .returned)
  | .raised => (g, .raised)

/-- The command raises. -/
def Stage.raise : Stage → Stage
  | .createAdd r => .createUndo r
  | _ => .raised

def Stage.ended : Stage → Bool
  | .returned | .raised => true
  | _ => false

/-- No command of the call has run. -/
def Stage.first : Stage → Bool
  | .createSet _ | .updateGet _ | .deleteGet _ => true
  | _ => false

/-- A call, with the keys as they were when its first command ran. -/
structure Call where
  stage : Stage
  found : Keys

structure Store where
  keys : Keys := {}
  calls : List Call := []

inductive Step where
  | call (operation : Operation)
  | command (n : Nat)
  | raise (n : Nat)

def next (s : Store) : Step → Option Store
  | .call operation => some { s with calls := s.calls ++ [⟨operation.stage, s.keys⟩] }
  | .command n =>
    (s.calls[n]?.filter (!·.stage.ended)).map fun call =>
      let (keys, stage) := call.stage.command s.keys
      let found := if call.stage.first then s.keys else call.found
      { keys, calls := s.calls.set n ⟨stage, found⟩ }
  | .raise n =>
    (s.calls[n]?.filter (!·.stage.ended)).map fun call =>
      let found := if call.stage.first then s.keys else call.found
      { s with calls := s.calls.set n ⟨call.stage.raise, found⟩ }

def machine : Machine Store Step := ⟨next⟩

/-! ## When calls leave each other alone -/

/-- The service of a call that has begun and has not ended. -/
def Stage.serviceId : Stage → Option String
  | .createSetOwner r | .createDelete r | .createAdd r | .createUndo r => some r.serviceId
  | .updateGetOwner r _ | .updateSet r _ | .updateAdd r _ | .updateSetOwner r _
  | .updateDeleteOwner r _ => some r.serviceId
  | .deleteRecord id _ | .deleteOwner id _ | .deleteRemove id => some id
  | .createSet _ | .updateGet _ | .deleteGet _ | .returned | .raised => none

def Stage.isCreate : Stage → Bool
  | .createSetOwner _ | .createDelete _ | .createAdd _ | .createUndo _ => true
  | _ => false

/-- The environment and base URL that a call creates a service at, or moves one to. -/
def Stage.target : Stage → Option String
  | .createSetOwner r | .createDelete r | .createAdd r | .createUndo r => some r.envUrlKey
  | .updateGetOwner r existing | .updateSet r existing | .updateAdd r existing
  | .updateSetOwner r existing | .updateDeleteOwner r existing =>
    if existing.envUrlKey = r.envUrlKey then none else some r.envUrlKey
  | _ => none

/-- Two open calls are both creates, or are for different services and do not move to the same
environment and base URL. -/
def Compatible (a b : Call) : Prop :=
  (a.stage.isCreate ∧ b.stage.isCreate) ∨
    (∀ id ∈ a.stage.serviceId, id ∉ b.stage.serviceId) ∧
      ∀ key ∈ a.stage.target, key ∉ b.stage.target

instance (a b : Call) : Decidable (Compatible a b) := inferInstanceAs (Decidable (_ ∨ _))

def Apart (s : Store) : Prop := s.calls.Pairwise Compatible

instance (s : Store) : Decidable (Apart s) := inferInstanceAs (Decidable (List.Pairwise _ _))

/-- Nothing was written yet, or the write is taken back. -/
def Stage.safe : Stage → Bool
  | .createSet _ | .createAdd _ | .updateGet _ | .updateGetOwner .. | .updateSet .. | .deleteGet _
  | .deleteRecord .. => true
  | _ => false

/-- The condition on a step: the open calls leave each other alone, and a command that raises is
one of those after which nothing has to be undone, or the `SADD` of a create. -/
def Careful (s : Store) (l : Step) : Prop :=
  Apart s ∧ ∀ n, l = .raise n → ∀ call ∈ s.calls[n]?, call.stage.safe

instance (s : Store) : (l : Step) → Decidable (Careful s l)
  | .raise n => decidable_of_iff (Apart s ∧ ∀ call ∈ s.calls[n]?, call.stage.safe)
      ⟨fun h => ⟨h.1, fun m hm => by cases hm; exact h.2⟩, fun h => ⟨h.1, h.2 n rfl⟩⟩
  | .call _ => decidable_of_iff (Apart s) ⟨fun h => ⟨h, fun _ hm => nomatch hm⟩, fun h => h.1⟩
  | .command _ => decidable_of_iff (Apart s) ⟨fun h => ⟨h, fun _ hm => nomatch hm⟩, fun h => h.1⟩

theorem Compatible.symm {a b : Call} (h : Compatible a b) : Compatible b a := by
  obtain ⟨ha, hb⟩ | ⟨ids, targets⟩ := h
  · exact Or.inl ⟨hb, ha⟩
  · exact Or.inr ⟨fun id hb ha => ids id ha hb, fun key hb ha => targets key ha hb⟩

theorem Apart.compatible {s : Store} (h : Apart s) {n m : Nat} {a b : Call}
    (ha : s.calls[n]? = some a) (hb : s.calls[m]? = some b) (ne : n ≠ m) : Compatible a b := by
  obtain ⟨hn, rfl⟩ := List.getElem?_eq_some_iff.mp ha
  obtain ⟨hm, rfl⟩ := List.getElem?_eq_some_iff.mp hb
  have pairs := List.pairwise_iff_getElem.mp h
  obtain lt | gt := Nat.lt_or_gt_of_ne ne
  · exact pairs n m hn hm lt
  · exact (pairs m n hm hn gt).symm

/-! ## What the registry says about one service -/

/-- The record of the service, whether it is listed, and the keys that hold its id. -/
structure Keys.About (g : Keys) (id : String) (record : Option ServiceRecord) (listed : Bool)
    (owned : String → Prop) : Prop where
  record : g.records id = record
  listed : g.all id = listed
  owned : ∀ key, g.owners key = some id ↔ owned key

/-- Between two calls a service is registered in all three places, or has no record and no key. -/
def Keys.Settled (g : Keys) (id : String) : Prop :=
  (∃ r, g.About id (some r) true (· = r.envUrlKey)) ∨
    ∃ listed, g.About id none listed fun _ => False

/-- The registry says the same about the service. -/
structure Keys.Same (g g' : Keys) (id : String) : Prop where
  records : g.records id = g'.records id
  all : g.all id = g'.all id
  owners : ∀ key, g.owners key = some id ↔ g'.owners key = some id

theorem Keys.Same.refl (g : Keys) (id : String) : g.Same g id := ⟨rfl, rfl, fun _ => Iff.rfl⟩

theorem Keys.Same.trans {g g' g'' : Keys} {id : String} (h : g.Same g' id) (h' : g'.Same g'' id) :
    g.Same g'' id :=
  ⟨h.records.trans h'.records, h.all.trans h'.all, fun key => (h.owners key).trans (h'.owners key)⟩

theorem Keys.Same.about {g g' : Keys} {id : String} {record : Option ServiceRecord} {listed : Bool}
    {owned : String → Prop} (h : g'.Same g id) (hs : g.About id record listed owned) :
    g'.About id record listed owned :=
  ⟨h.records.trans hs.record, h.all.trans hs.listed, fun key => (h.owners key).trans (hs.owned key)⟩

theorem Keys.Same.settled {g g' : Keys} {id : String} (h : g'.Same g id) (hs : g.Settled id) :
    g'.Settled id := by
  obtain ⟨r, hr⟩ | ⟨listed, hn⟩ := hs
  · exact Or.inl ⟨r, h.about hr⟩
  · exact Or.inr ⟨listed, h.about hn⟩

/-- The key is free, or the service has it already. -/
def Keys.Free (g : Keys) (id key : String) : Prop :=
  g.owners key = none ∨ g.owners key = some id

/-- What a call has made of its service so far. -/
def Stage.Local (g found : Keys) : Stage → Prop
  | .createSetOwner r | .createDelete r =>
    g.About r.serviceId (some r) (found.all r.serviceId) (fun _ => False) ∧
      found.About r.serviceId none (found.all r.serviceId) fun _ => False
  | .createAdd r | .createUndo r =>
    g.About r.serviceId (some r) (found.all r.serviceId) (· = r.envUrlKey) ∧
      found.About r.serviceId none (found.all r.serviceId) fun _ => False
  | .updateGetOwner r existing =>
    g.About r.serviceId (some existing) true (· = existing.envUrlKey) ∧ g.Same found r.serviceId
  | .updateSet r existing =>
    g.About r.serviceId (some existing) true (· = existing.envUrlKey) ∧
      g.Same found r.serviceId ∧ g.Free r.serviceId r.envUrlKey
  | .updateAdd r existing | .updateSetOwner r existing =>
    g.About r.serviceId (some r) true (· = existing.envUrlKey) ∧ g.Free r.serviceId r.envUrlKey
  | .updateDeleteOwner r existing =>
    g.About r.serviceId (some r) true (fun key => key = existing.envUrlKey ∨ key = r.envUrlKey) ∧
      existing.envUrlKey ≠ r.envUrlKey
  | .deleteRecord id existing =>
    g.About id (some existing) true (· = existing.envUrlKey) ∧ g.Same found id
  | .deleteOwner id existing => g.About id none true (· = existing.envUrlKey)
  | .deleteRemove id => g.About id none true fun _ => False
  | .createSet _ | .updateGet _ | .deleteGet _ | .returned | .raised => True

structure Inv (s : Store) : Prop where
  started : ∀ (n : Nat) (call : Call), s.calls[n]? = some call → call.stage.Local s.keys call.found
  settled : ∀ id, (∀ (n : Nat) (call : Call), s.calls[n]? = some call →
    call.stage.serviceId ≠ some id) → s.keys.Settled id
  distinct : ∀ (n m : Nat) (a b : Call) (id : String), s.calls[n]? = some a →
    s.calls[m]? = some b → a.stage.serviceId = some id → b.stage.serviceId = some id → n = m

/-- A command changes what the registry says about one service, and takes no key from another. A
key that it takes is its target. -/
structure Touches (g g' : Keys) (id : String) (target : Option String) : Prop where
  records : ∀ other, other ≠ id → g'.records other = g.records other
  all : ∀ other, other ≠ id → g'.all other = g.all other
  owners : ∀ key, g'.owners key = g.owners key ∨
    (g.Free id key ∧ (g'.owners key = none ∨ g'.owners key = some id))
  taken : ∀ key, g'.owners key = some id → g.owners key = some id ∨ target = some key

theorem Touches.refl (g : Keys) (id : String) (target : Option String) : Touches g g id target :=
  ⟨fun _ _ => rfl, fun _ _ => rfl, fun _ => Or.inl rfl, fun _ h => Or.inl h⟩

theorem Touches.setRecord (g : Keys) (id : String) (r : Option ServiceRecord)
    (target : Option String) : Touches g (g.setRecord id r) id target :=
  ⟨fun _ ne => Function.update_of_ne ne .., fun _ _ => rfl, fun _ => Or.inl rfl,
    fun _ h => Or.inl h⟩

theorem Touches.setListed (g : Keys) (id : String) (listed : Bool) (target : Option String) :
    Touches g (g.setListed id listed) id target :=
  ⟨fun _ _ => rfl, fun _ ne => Function.update_of_ne ne .., fun _ => Or.inl rfl,
    fun _ h => Or.inl h⟩

theorem setOwner_self (g : Keys) (key : String) (owner : Option String) :
    (g.setOwner key owner).owners key = owner := Function.update_self ..

theorem setOwner_of_ne (g : Keys) {key other : String} (owner : Option String) (ne : other ≠ key) :
    (g.setOwner key owner).owners other = g.owners other := Function.update_of_ne ne ..

theorem Touches.setOwner {g : Keys} {id key : String} {owner target : Option String}
    (free : g.Free id key) (mine : owner = none ∨ owner = some id)
    (taken : owner = some id → g.owners key = some id ∨ target = some key) :
    Touches g (g.setOwner key owner) id target where
  records _ _ := rfl
  all _ _ := rfl
  owners other := by
    by_cases same : other = key
    · subst same
      exact Or.inr ⟨free, by rwa [setOwner_self]⟩
    · exact Or.inl (setOwner_of_ne g owner same)
  taken other h := by
    by_cases same : other = key
    · subst same
      rw [setOwner_self] at h
      exact taken h
    · rw [setOwner_of_ne g owner same] at h
      exact Or.inl h

theorem Touches.trans {g g' g'' : Keys} {id : String} {target : Option String}
    (h : Touches g g' id target) (h' : Touches g' g'' id target) : Touches g g'' id target where
  records other ne := (h'.records other ne).trans (h.records other ne)
  all other ne := (h'.all other ne).trans (h.all other ne)
  owners key := by
    obtain same' | ⟨free', now'⟩ := h'.owners key
    · rw [same']
      exact h.owners key
    · obtain same | ⟨free, -⟩ := h.owners key
      · rw [Keys.Free, same] at free'
        exact Or.inr ⟨free', now'⟩
      · exact Or.inr ⟨free, now'⟩
  taken key hk := by
    obtain old | new := h'.taken key hk
    · exact h.taken key old
    · exact Or.inr new

/-- Another service is none of its business. -/
theorem Touches.same {g g' : Keys} {id other : String} {target : Option String}
    (h : Touches g g' id target) (ne : other ≠ id) : g'.Same g other where
  records := h.records other ne
  all := h.all other ne
  owners key := by
    obtain same | ⟨free, now⟩ := h.owners key
    · rw [same]
    · have before : g.owners key ≠ some other := by
        rintro hk
        obtain none | mine := free
        · rw [none] at hk
          cases hk
        · exact ne (Option.some.inj (hk.symm.trans mine))
      have after : g'.owners key ≠ some other := by
        rintro hk
        obtain none | mine := now
        · rw [none] at hk
          cases hk
        · exact ne (Option.some.inj (hk.symm.trans mine))
      exact ⟨fun h => absurd h after, fun h => absurd h before⟩

theorem Touches.free {g g' : Keys} {id other key : String} {target : Option String}
    (h : Touches g g' id target) (ne : other ≠ id) (free : g.Free other key)
    (away : target = some key → g.owners key = some other) : g'.Free other key := by
  obtain same | ⟨mine, none | now⟩ := h.owners key
  · rw [Keys.Free, same]
    exact free
  · exact Or.inl none
  · have before : g.owners key ≠ some other := by
      intro hk
      obtain none | hid := mine
      · rw [none] at hk
        cases hk
      · exact ne (Option.some.inj (hk.symm.trans hid))
    obtain old | aimed := h.taken key now
    · obtain none | hk := free
      · rw [none] at old
        cases old
      · exact absurd hk before
    · exact absurd (away aimed) before

/-- What a call has made of its service is none of another's business either. -/
theorem Stage.Local.frame {g g' found : Keys} {stage : Stage} {id : String}
    {target : Option String} (h : stage.Local g found) (touch : Touches g g' id target)
    (ne : stage.serviceId ≠ some id)
    (away : ∀ key, target = some key → stage.target = some key → stage.isCreate) :
    stage.Local g' found := by
  have other : ∀ {i : String}, stage.serviceId = some i → g'.Same g i := fun hi =>
    touch.same fun same => ne (same ▸ hi)
  -- The key that an update moves to is the target of no other call.
  have free : ∀ {r existing : ServiceRecord} {record : Option ServiceRecord},
      stage.serviceId = some r.serviceId → stage.isCreate = false →
      (existing.envUrlKey ≠ r.envUrlKey → stage.target = some r.envUrlKey) →
      g.About r.serviceId record true (· = existing.envUrlKey) →
      g.Free r.serviceId r.envUrlKey → g'.Free r.serviceId r.envUrlKey := by
    intro r existing record hid update moving view free
    refine touch.free (fun same => ne (same ▸ hid)) free fun aimed => ?_
    by_cases stays : existing.envUrlKey = r.envUrlKey
    · exact (view.owned _).mpr stays.symm
    · have create := away _ aimed (moving stays)
      rw [update] at create
      cases create
  cases stage with
  | createSetOwner r | createDelete r | createAdd r | createUndo r =>
    exact ⟨(other rfl).about h.1, h.2⟩
  | updateGetOwner r existing => exact ⟨(other rfl).about h.1, (other rfl).trans h.2⟩
  | updateSet r existing =>
    obtain ⟨view, same, hf⟩ := h
    exact ⟨(other rfl).about view, (other rfl).trans same,
      free rfl rfl (fun moving => if_neg moving) view hf⟩
  | updateAdd r existing =>
    exact ⟨(other rfl).about h.1, free rfl rfl (fun moving => if_neg moving) h.1 h.2⟩
  | updateSetOwner r existing =>
    exact ⟨(other rfl).about h.1, free rfl rfl (fun moving => if_neg moving) h.1 h.2⟩
  | updateDeleteOwner r existing => exact ⟨(other rfl).about h.1, h.2⟩
  | deleteRecord id existing => exact ⟨(other rfl).about h.1, (other rfl).trans h.2⟩
  | deleteOwner id existing => exact (other rfl).about h
  | deleteRemove id => exact (other rfl).about h
  | createSet | updateGet | deleteGet | returned | raised => trivial

/-- One call moves. No other open call is for its service, nor moves to its target. -/
theorem Inv.move {s t : Store} {n : Nat} {call call' : Call} {id : String}
    {target : Option String} (h : Inv s) (hn : s.calls[n]? = some call)
    (ht : t.calls = s.calls.set n call') (touch : Touches s.keys t.keys id target)
    (alone : ∀ (m : Nat) (other : Call), m ≠ n → s.calls[m]? = some other →
      other.stage.serviceId ≠ some id)
    (away : ∀ (m : Nat) (other : Call), m ≠ n → s.calls[m]? = some other →
      ∀ key, target = some key → other.stage.target = some key → other.stage.isCreate)
    (before : ∀ i, call.stage.serviceId = some i → i = id)
    (started : call'.stage.Local t.keys call'.found)
    (after : call'.stage.serviceId = some id ∨
      call'.stage.serviceId = none ∧ t.keys.Settled id) : Inv t where
  started m other hm := by
    rw [ht] at hm
    obtain ⟨rfl, rfl⟩ | ⟨ne, hm⟩ := set_some_cases hm
    · exact started
    · exact (h.started m other hm).frame touch (alone m other ne hm) (away m other ne hm)
  settled i none := by
    have mem : t.calls[n]? = some call' := by
      rw [ht]
      exact List.getElem?_set_self (List.getElem?_eq_some_iff.mp hn).1
    by_cases same : i = id
    · subst same
      obtain open' | ⟨-, settled⟩ := after
      · exact absurd open' (none n call' mem)
      · exact settled
    · refine (touch.same same).settled (h.settled i fun m other hm open' => ?_)
      by_cases hmn : m = n
      · subst hmn
        obtain rfl : call = other := Option.some.inj (hn.symm.trans hm)
        exact same (before i open')
      · refine none m other ?_ open'
        rw [ht, List.getElem?_set_ne (fun e => hmn e.symm)]
        exact hm
  distinct m k a b i hm hk ha hb := by
    have mine : ∀ {j : Nat} {other : Call}, j ≠ n → s.calls[j]? = some other →
        other.stage.serviceId = some i → call'.stage.serviceId = some i → False := by
      intro j other ne hj hi hi'
      obtain open' | ⟨closed, -⟩ := after
      · obtain rfl : id = i := Option.some.inj (open'.symm.trans hi')
        exact alone j other ne hj hi
      · rw [closed] at hi'
        cases hi'
    rw [ht] at hm hk
    obtain ⟨rfl, rfl⟩ | ⟨hmn, hm'⟩ := set_some_cases hm
    · obtain ⟨rfl, -⟩ | ⟨hkn, hk'⟩ := set_some_cases hk
      · rfl
      · exact (mine hkn hk' hb ha).elim
    · obtain ⟨rfl, rfl⟩ | ⟨-, hk'⟩ := set_some_cases hk
      · exact (mine hmn hm' ha hb).elim
      · exact h.distinct m k a b i hm' hk' ha hb

end Relayna.Studio.Registry
