import Relayna.Studio.Registry

/-!
# One service for each environment and base URL

What each command makes of the service of its call, and from it what a run leaves once all calls
have ended: the three entries of every service agree.
-/
namespace Relayna.Studio.Registry

open Python Contracts Transition

/-! ## One command -/

section About

variable {g : Keys} {id : String} {record : Option ServiceRecord} {listed : Bool}
  {owned owned' : String → Prop}

theorem Keys.About.setRecord (h : g.About id record listed owned) (r : Option ServiceRecord) :
    (g.setRecord id r).About id r listed owned :=
  ⟨Function.update_self .., h.listed, h.owned⟩

theorem Keys.About.setListed (h : g.About id record listed owned) (b : Bool) :
    (g.setListed id b).About id record b owned :=
  ⟨h.record, Function.update_self .., h.owned⟩

theorem Keys.About.take (h : g.About id record listed owned) (key : String)
    (iff : ∀ other, owned' other ↔ owned other ∨ other = key) :
    (g.setOwner key (some id)).About id record listed owned' := by
  refine ⟨h.record, h.listed, fun other => ?_⟩
  rw [iff]
  by_cases same : other = key
  · simp [same, setOwner_self]
  · rw [setOwner_of_ne g _ same, h.owned]
    simp [same]

theorem Keys.About.drop (h : g.About id record listed owned) (key : String)
    (iff : ∀ other, owned' other ↔ owned other ∧ other ≠ key) :
    (g.setOwner key none).About id record listed owned' := by
  refine ⟨h.record, h.listed, fun other => ?_⟩
  rw [iff]
  by_cases same : other = key
  · simp [same, setOwner_self]
  · rw [setOwner_of_ne g _ same, h.owned]
    simp [same]

end About

/-- What a command of an open call does: the call goes on, or it ends with its service settled,
and as it was found if the call raised. -/
structure Goes (g' found : Keys) (id : String) (stage' : Stage) : Prop where
  started : stage'.Local g' found
  after : stage'.serviceId = some id ∨ stage'.serviceId = none ∧ g'.Settled id
  raised : stage' = .raised → g'.Same found id

theorem command_goes {g found : Keys} {stage : Stage} {id : String}
    (hid : stage.serviceId = some id) (h : stage.Local g found) :
    Touches g (stage.command g).1 id stage.target ∧
      Goes (stage.command g).1 found id (stage.command g).2 := by
  cases stage with
  | createSetOwner r =>
    obtain rfl : r.serviceId = id := Option.some.inj hid
    obtain ⟨here, there⟩ := h
    cases ho : g.owners r.envUrlKey with
    | some owner =>
      simp only [Stage.command, ho]
      exact ⟨.refl .., ⟨here, there⟩, Or.inl rfl, nofun⟩
    | none =>
      simp only [Stage.command, ho]
      refine ⟨.setOwner (Or.inl ho) (Or.inr rfl) fun _ => Or.inr rfl, ⟨?_, there⟩, Or.inl rfl,
        nofun⟩
      exact here.take _ (by simp)
  | createDelete r =>
    obtain rfl : r.serviceId = id := Option.some.inj hid
    obtain ⟨here, there⟩ := h
    have gone := here.setRecord none
    refine ⟨.setRecord .., trivial, Or.inr ⟨rfl, Or.inr ⟨_, gone⟩⟩, fun _ => ?_⟩
    exact ⟨gone.record.trans there.record.symm, gone.listed,
      fun key => (gone.owned key).trans (there.owned key).symm⟩
  | createAdd r =>
    obtain rfl : r.serviceId = id := Option.some.inj hid
    exact ⟨.setListed .., trivial, Or.inr ⟨rfl, Or.inl ⟨r, h.1.setListed true⟩⟩, nofun⟩
  | createUndo r =>
    obtain rfl : r.serviceId = id := Option.some.inj hid
    obtain ⟨here, there⟩ := h
    have gone : ((g.setRecord r.serviceId none).setOwner r.envUrlKey none).About r.serviceId none
        (found.all r.serviceId) fun _ => False :=
      (here.setRecord none).drop _ (by simp)
    have mine : (g.setRecord r.serviceId none).Free r.serviceId r.envUrlKey :=
      Or.inr ((here.owned _).mpr rfl)
    refine ⟨(Touches.setRecord ..).trans (.setOwner mine (Or.inl rfl) nofun), trivial,
      Or.inr ⟨rfl, Or.inr ⟨_, gone⟩⟩, fun _ => ?_⟩
    exact ⟨gone.record.trans there.record.symm, gone.listed,
      fun key => (gone.owned key).trans (there.owned key).symm⟩
  | updateGetOwner r existing =>
    obtain rfl : r.serviceId = id := Option.some.inj hid
    obtain ⟨here, same⟩ := h
    simp only [Stage.command]
    split_ifs with free
    · refine ⟨.refl .., ⟨here, same, ?_⟩, Or.inl rfl, nofun⟩
      cases ho : g.owners r.envUrlKey with
      | none => exact Or.inl ho
      | some owner => exact Or.inr (by simpa [ho] using free)
    · exact ⟨.refl .., trivial, Or.inr ⟨rfl, Or.inl ⟨existing, here⟩⟩, fun _ => same⟩
  | updateSet r existing =>
    obtain rfl : r.serviceId = id := Option.some.inj hid
    exact ⟨.setRecord .., ⟨h.1.setRecord _, h.2.2⟩, Or.inl rfl, nofun⟩
  | updateAdd r existing =>
    obtain rfl : r.serviceId = id := Option.some.inj hid
    exact ⟨.setListed .., ⟨h.1.setListed true, h.2⟩, Or.inl rfl, nofun⟩
  | updateSetOwner r existing =>
    obtain rfl : r.serviceId = id := Option.some.inj hid
    obtain ⟨here, free⟩ := h
    simp only [Stage.command]
    split_ifs with stays
    · have mine : g.owners r.envUrlKey = some r.serviceId := (here.owned _).mpr stays.symm
      refine ⟨.setOwner free (Or.inr rfl) fun _ => Or.inl mine, trivial,
        Or.inr ⟨rfl, Or.inl ⟨r, ?_⟩⟩, nofun⟩
      exact here.take _ (by simp [stays])
    · refine ⟨.setOwner free (Or.inr rfl) fun _ => Or.inr (if_neg stays), ⟨?_, stays⟩, Or.inl rfl,
        nofun⟩
      exact here.take _ (by simp)
  | updateDeleteOwner r existing =>
    obtain rfl : r.serviceId = id := Option.some.inj hid
    obtain ⟨here, moved⟩ := h
    have mine : g.Free r.serviceId existing.envUrlKey := Or.inr ((here.owned _).mpr (Or.inl rfl))
    refine ⟨.setOwner mine (Or.inl rfl) nofun, trivial, Or.inr ⟨rfl, Or.inl ⟨r, ?_⟩⟩, nofun⟩
    refine here.drop _ fun other => ?_
    constructor
    · rintro rfl
      exact ⟨Or.inr rfl, fun same => moved same.symm⟩
    · rintro ⟨rfl | rfl, ne⟩
      · exact absurd rfl ne
      · rfl
  | deleteRecord i existing =>
    obtain rfl : i = id := Option.some.inj hid
    exact ⟨.setRecord .., h.1.setRecord none, Or.inl rfl, nofun⟩
  | deleteOwner i existing =>
    obtain rfl : i = id := Option.some.inj hid
    have mine : g.Free i existing.envUrlKey := Or.inr ((h.owned _).mpr rfl)
    exact ⟨.setOwner mine (Or.inl rfl) nofun, h.drop _ (by simp), Or.inl rfl, nofun⟩
  | deleteRemove i =>
    obtain rfl : i = id := Option.some.inj hid
    exact ⟨.setListed .., trivial, Or.inr ⟨rfl, Or.inr ⟨_, h.setListed false⟩⟩, nofun⟩
  | createSet | updateGet | deleteGet | returned | raised => cases hid

/-- A command that raises while nothing has to be undone, or the `SADD` of a create. -/
theorem raise_goes {g found : Keys} {stage : Stage} {id : String}
    (hid : stage.serviceId = some id) (h : stage.Local g found) (safe : stage.safe) :
    Goes g found id stage.raise := by
  cases stage with
  | createAdd r => exact ⟨h, Or.inl hid, nofun⟩
  | updateGetOwner r existing =>
    obtain rfl : r.serviceId = id := Option.some.inj hid
    exact ⟨trivial, Or.inr ⟨rfl, Or.inl ⟨existing, h.1⟩⟩, fun _ => h.2⟩
  | updateSet r existing =>
    obtain rfl : r.serviceId = id := Option.some.inj hid
    exact ⟨trivial, Or.inr ⟨rfl, Or.inl ⟨existing, h.1⟩⟩, fun _ => h.2.1⟩
  | deleteRecord i existing =>
    obtain rfl : i = id := Option.some.inj hid
    exact ⟨trivial, Or.inr ⟨rfl, Or.inl ⟨existing, h.1⟩⟩, fun _ => h.2⟩
  | createSet | updateGet | deleteGet => cases hid
  | _ => cases safe

/-- The service that a call is about to open. -/
def Stage.asked : Stage → String
  | .createSet r | .updateGet r => r.serviceId
  | .deleteGet id => id
  | _ => ""

/-- The first command of a call, on a service that is settled. -/
theorem first_goes {g : Keys} {stage : Stage} (first : stage.first) :
    ((stage.command g).1 = g ∧ (stage.command g).2 = .raised) ∨
      (stage.command g).2.serviceId = some stage.asked ∧
      ((stage.command g).2.isCreate → g.records stage.asked = none) ∧
      (g.Settled stage.asked → Touches g (stage.command g).1 stage.asked none ∧
        Goes (stage.command g).1 g stage.asked (stage.command g).2) := by
  cases stage with
  | createSet r =>
    cases hr : g.records r.serviceId with
    | some other =>
      left
      simp [Stage.command, hr]
    | none =>
      simp only [Stage.command, hr]
      refine Or.inr ⟨rfl, fun _ => hr, fun settled => ⟨.setRecord .., ?_, Or.inl rfl, nofun⟩⟩
      obtain ⟨other, view⟩ | ⟨listed, view⟩ := settled
      · exact absurd (view.record.symm.trans hr) nofun
      · obtain rfl : g.all r.serviceId = listed := view.listed
        exact ⟨view.setRecord (some r), view⟩
  | updateGet r =>
    cases hr : g.records r.serviceId with
    | none =>
      left
      simp [Stage.command, hr]
    | some existing =>
      simp only [Stage.command, hr]
      refine Or.inr ⟨rfl, nofun, fun settled => ⟨.refl .., ⟨?_, .refl ..⟩, Or.inl rfl, nofun⟩⟩
      obtain ⟨other, view⟩ | ⟨listed, view⟩ := settled
      · obtain rfl : other = existing := Option.some.inj (view.record.symm.trans hr)
        exact view
      · exact absurd (view.record.symm.trans hr) nofun
  | deleteGet id =>
    cases hr : g.records id with
    | none =>
      left
      simp [Stage.command, hr]
    | some existing =>
      simp only [Stage.command, hr]
      refine Or.inr ⟨rfl, nofun, fun settled => ⟨.refl .., ⟨?_, .refl ..⟩, Or.inl rfl, nofun⟩⟩
      obtain ⟨other, view⟩ | ⟨listed, view⟩ := settled
      · obtain rfl : other = existing := Option.some.inj (view.record.symm.trans hr)
        exact view
      · exact absurd (view.record.symm.trans hr) nofun
  | _ => cases first

/-! ## Every step -/

theorem mem_set {s : Store} {n : Nat} {call call' : Call} (hn : s.calls[n]? = some call) :
    (s.calls.set n call')[n]? = some call' :=
  List.getElem?_set_self (List.getElem?_eq_some_iff.mp hn).1

/-- A call that writes nothing ends. -/
theorem Inv.close {s : Store} {n : Nat} {call : Call} (h : Inv s) (hn : s.calls[n]? = some call)
    (idle : call.stage.serviceId = none) {call' : Call} (idle' : call'.stage.serviceId = none)
    (started : call'.stage.Local s.keys call'.found) :
    Inv { s with calls := s.calls.set n call' } where
  started m other hm := by
    obtain ⟨-, rfl⟩ | ⟨-, hm⟩ := set_some_cases hm
    · exact started
    · exact h.started m other hm
  settled id none := by
    refine h.settled id fun m other hm open' => ?_
    by_cases same : m = n
    · subst same
      obtain rfl : call = other := Option.some.inj (hn.symm.trans hm)
      rw [idle] at open'
      cases open'
    · refine none m other ?_ open'
      rw [List.getElem?_set_ne (fun e => same e.symm)]
      exact hm
  distinct m k a b id hm hk ha hb := by
    obtain ⟨-, rfl⟩ | ⟨-, hm⟩ := set_some_cases hm
    · rw [idle'] at ha
      cases ha
    · obtain ⟨-, rfl⟩ | ⟨-, hk⟩ := set_some_cases hk
      · rw [idle'] at hb
        cases hb
      · exact h.distinct m k a b id hm hk ha hb

/-- A command, or a raise, of an open call. -/
theorem Inv.goes {s t : Store} {n : Nat} {call : Call} {id : String} {stage' : Stage}
    (h : Inv s) (apart : Apart s) (hn : s.calls[n]? = some call)
    (hid : call.stage.serviceId = some id)
    (ht : t.calls = s.calls.set n ⟨stage', call.found⟩)
    (touch : Touches s.keys t.keys id call.stage.target)
    (goes : Goes t.keys call.found id stage') : Inv t := by
  refine h.move hn ht touch (fun m other ne hm open' => ?_)
    (fun m other ne hm key aimed aimed' => ?_) (fun i hi => Option.some.inj (hi.symm.trans hid))
    goes.started goes.after
  · exact ne (h.distinct m n other call id hm hn open' hid)
  · obtain ⟨-, create⟩ | ⟨-, targets⟩ := apart.compatible hn hm (fun e => ne e.symm)
    · exact create
    · exact absurd aimed' (targets key aimed)

/-- The first command of a call. -/
theorem Inv.begin {s t : Store} {n : Nat} {call : Call} {stage' : Stage} {id : String}
    (h : Inv s) (apart : Apart t) (hn : s.calls[n]? = some call)
    (idle : call.stage.serviceId = none)
    (ht : t.calls = s.calls.set n ⟨stage', s.keys⟩) (hid : stage'.serviceId = some id)
    (create : stage'.isCreate → s.keys.records id = none)
    (goes : s.keys.Settled id → Touches s.keys t.keys id none ∧ Goes t.keys s.keys id stage') :
    Inv t := by
  have alone : ∀ (m : Nat) (other : Call), m ≠ n → s.calls[m]? = some other →
      other.stage.serviceId ≠ some id := by
    intro m other ne hm open'
    have hn' : t.calls[n]? = some ⟨stage', s.keys⟩ := ht ▸ mem_set hn
    have hm' : t.calls[m]? = some other := by
      rw [ht, List.getElem?_set_ne (fun e => ne e.symm)]
      exact hm
    obtain ⟨creates, creates'⟩ | ⟨ids, -⟩ := apart.compatible hn' hm' (fun e => ne e.symm)
    · -- A create that is open has reserved the record.
      have reserved := h.started m other hm
      have free := create creates
      cases hs : other.stage <;> simp only [hs, Stage.isCreate, Stage.serviceId] at creates' open'
      all_goals first
        | exact absurd creates' Bool.false_ne_true
        | simp only [hs, Stage.Local] at reserved
          obtain rfl := Option.some.inj open'
          rw [reserved.1.record] at free
          cases free
    · exact ids id hid open'
  have settled : s.keys.Settled id := by
    refine h.settled id fun m other hm open' => ?_
    by_cases same : m = n
    · subst same
      obtain rfl : call = other := Option.some.inj (hn.symm.trans hm)
      rw [idle] at open'
      cases open'
    · exact alone m other same hm open'
  obtain ⟨touch, goes⟩ := goes settled
  refine h.move hn ht touch alone (fun _ _ _ _ _ none => by cases none) (fun i hi => ?_)
    goes.started goes.after
  rw [idle] at hi
  cases hi

theorem Stage.serviceId_of_first {stage : Stage} (first : stage.first) :
    stage.serviceId = none := by
  cases stage <;> first | rfl | cases first

theorem Stage.exists_serviceId {stage : Stage} (live : stage.ended = false)
    (begun : stage.first = false) : ∃ id, stage.serviceId = some id := by
  cases stage <;> simp_all [Stage.ended, Stage.first, Stage.serviceId]

/-- A step of a call, by what the call has done before. -/
theorem next_cases {s t : Store} {l : Step} (hl : next s l = some t) :
    (∃ operation, l = .call operation ∧
      t = { s with calls := s.calls ++ [⟨operation.stage, s.keys⟩] }) ∨
    ∃ n call, s.calls[n]? = some call ∧ call.stage.ended = false ∧
      ((l = .command n ∧ t.keys = (call.stage.command s.keys).1 ∧
          t.calls = s.calls.set n ⟨(call.stage.command s.keys).2,
            if call.stage.first then s.keys else call.found⟩) ∨
        l = .raise n ∧ t.keys = s.keys ∧
          t.calls = s.calls.set n ⟨call.stage.raise,
            if call.stage.first then s.keys else call.found⟩) := by
  cases l with
  | call operation => exact Or.inl ⟨operation, rfl, (Option.some.inj hl).symm⟩
  | command n =>
    obtain ⟨call, found, rfl⟩ := Option.map_eq_some_iff.mp hl
    obtain ⟨hn, live⟩ := Option.filter_eq_some_iff.mp found
    exact Or.inr ⟨n, call, hn, by simpa using live, Or.inl ⟨rfl, rfl, rfl⟩⟩
  | raise n =>
    obtain ⟨call, found, rfl⟩ := Option.map_eq_some_iff.mp hl
    obtain ⟨hn, live⟩ := Option.filter_eq_some_iff.mp found
    exact Or.inr ⟨n, call, hn, by simpa using live, Or.inr ⟨rfl, rfl, rfl⟩⟩

theorem Stage.raise_of_first {stage : Stage} (first : stage.first) : stage.raise = .raised := by
  cases stage <;> first | rfl | cases first

theorem Operation.first_stage (operation : Operation) : operation.stage.first := by
  cases operation <;> rfl

theorem Stage.local_of_first {g found : Keys} {stage : Stage} (first : stage.first) :
    stage.Local g found := by
  cases stage <;> trivial

theorem Inv.next {s t : Store} {l : Step} (h : Inv s) (careful : Careful s l) (apart : Apart t)
    (hl : next s l = some t) : Inv t := by
  obtain ⟨operation, -, rfl⟩ | ⟨n, call, hn, live, step⟩ := next_cases hl
  · have first := operation.first_stage
    have cases : ∀ {m : Nat} {other : Call},
        (s.calls ++ [⟨operation.stage, s.keys⟩])[m]? = some other →
          s.calls[m]? = some other ∨ other.stage.serviceId = none ∧ other.stage.first := by
      intro m other hm
      obtain hm | rfl := append_some_cases hm
      · exact Or.inl hm
      · exact Or.inr ⟨Stage.serviceId_of_first first, first⟩
    refine ⟨fun m other hm => ?_, fun id none => ?_, fun m k a b id hm hk ha hb => ?_⟩
    · obtain hm | ⟨-, idle⟩ := cases hm
      · exact h.started m other hm
      · exact Stage.local_of_first idle
    · refine h.settled id fun m other hm => none m other ?_
      rw [List.getElem?_append_left (List.getElem?_eq_some_iff.mp hm).1]
      exact hm
    · obtain hm | ⟨idle, -⟩ := cases hm
      · obtain hk | ⟨idle, -⟩ := cases hk
        · exact h.distinct m k a b id hm hk ha hb
        · rw [idle] at hb
          cases hb
      · rw [idle] at ha
        cases ha
  · cases first : call.stage.first with
    | true =>
      have idle := Stage.serviceId_of_first first
      simp only [first, if_true] at step
      obtain ⟨-, keys, calls⟩ | ⟨-, keys, calls⟩ := step
      · obtain ⟨same, raised⟩ | ⟨opened, create, goes⟩ := first_goes (g := s.keys) first
        · obtain rfl : t = { s with calls := s.calls.set n ⟨.raised, s.keys⟩ } := by
            cases t
            simp_all
          exact h.close hn idle rfl trivial
        · exact h.begin apart hn idle calls opened create (keys ▸ goes)
      · rw [Stage.raise_of_first first] at calls
        obtain rfl : t = { s with calls := s.calls.set n ⟨.raised, s.keys⟩ } := by
          cases t
          simp_all
        exact h.close hn idle rfl trivial
    | false =>
      obtain ⟨id, hid⟩ := Stage.exists_serviceId live first
      simp only [first, Bool.false_eq_true, if_false] at step
      obtain ⟨-, keys, calls⟩ | ⟨rfl, keys, calls⟩ := step
      · obtain ⟨touch, goes⟩ := command_goes hid (h.started n call hn)
        exact h.goes careful.1 hn hid calls (keys ▸ touch) (keys ▸ goes)
      · have goes := raise_goes hid (h.started n call hn) (careful.2 n rfl call hn)
        exact h.goes careful.1 hn hid calls (keys ▸ .refl ..) (keys ▸ goes)

/-- A call that raises leaves its service as it found it. -/
theorem raised_as_found {s t : Store} {l : Step} (h : Inv s) (careful : Careful s l)
    (hl : next s l = some t) {n : Nat} {call call' : Call} (hn : s.calls[n]? = some call)
    (live : call.stage.ended = false) (hn' : t.calls[n]? = some call')
    (raised : call'.stage = .raised) {id : String}
    (mine : call.stage.serviceId = some id ∨ call.stage.first) : t.keys.Same call'.found id := by
  obtain ⟨operation, -, rfl⟩ | ⟨m, other, hm, -, step⟩ := next_cases hl
  · rw [List.getElem?_append_left (List.getElem?_eq_some_iff.mp hn).1, hn] at hn'
    obtain rfl := Option.some.inj hn'
    rw [raised] at live
    cases live
  · have moved : m = n := by
      by_contra ne
      have same : t.calls[n]? = s.calls[n]? := by
        obtain ⟨-, -, calls⟩ | ⟨-, -, calls⟩ := step
        · rw [calls, List.getElem?_set_ne ne]
        · rw [calls, List.getElem?_set_ne ne]
      rw [same, hn] at hn'
      obtain rfl := Option.some.inj hn'
      rw [raised] at live
      cases live
    subst moved
    obtain rfl : call = other := Option.some.inj (hn.symm.trans hm)
    cases first : call.stage.first with
    | true =>
      simp only [first, if_true] at step
      obtain ⟨-, keys, calls⟩ | ⟨-, keys, calls⟩ := step
      · rw [calls, mem_set hn] at hn'
        obtain rfl := Option.some.inj hn'
        obtain ⟨same, -⟩ | ⟨opened, -⟩ := first_goes (g := s.keys) first
        · rw [keys, same]
          exact .refl ..
        · have closed : (call.stage.command s.keys).2 = .raised := raised
          rw [closed] at opened
          cases opened
      · rw [calls, mem_set hn] at hn'
        obtain rfl := Option.some.inj hn'
        rw [keys]
        exact .refl ..
    | false =>
      have hid : call.stage.serviceId = some id := by
        obtain hid | begun := mine
        · exact hid
        · rw [first] at begun
          cases begun
      simp only [first, Bool.false_eq_true, if_false] at step
      obtain ⟨-, keys, calls⟩ | ⟨rfl, keys, calls⟩ := step
      · rw [calls, mem_set hn] at hn'
        obtain rfl := Option.some.inj hn'
        rw [keys]
        exact (command_goes hid (h.started m call hn)).2.raised raised
      · rw [calls, mem_set hn] at hn'
        obtain rfl := Option.some.inj hn'
        rw [keys]
        exact (raise_goes hid (h.started m call hn) (careful.2 m rfl call hn)).raised raised

/-! ## Every run -/

/-- The three entries of every service agree. -/
structure Keys.Consistent (g : Keys) : Prop where
  unique : ∀ id id' r r', g.records id = some r → g.records id' = some r' →
    r.environment = r'.environment → r.baseUrl = r'.baseUrl → id = id'
  registered : ∀ id r, g.records id = some r → g.all id = true ∧ g.owners r.envUrlKey = some id
  owned : ∀ key id, g.owners key = some id → ∃ r, g.records id = some r ∧ r.envUrlKey = key

theorem consistent_of_settled {g : Keys} (h : ∀ id, g.Settled id) : g.Consistent := by
  have registered : ∀ id r, g.records id = some r →
      g.all id = true ∧ g.owners r.envUrlKey = some id := by
    intro id r hr
    obtain ⟨r', view⟩ | ⟨listed, view⟩ := h id
    · obtain rfl : r' = r := Option.some.inj (view.record.symm.trans hr)
      exact ⟨view.listed, (view.owned _).mpr rfl⟩
    · rw [view.record] at hr
      cases hr
  refine ⟨fun id id' r r' hr hr' env url => ?_, registered, fun key id hk => ?_⟩
  · have same : r.envUrlKey = r'.envUrlKey := by rw [ServiceRecord.envUrlKey, env, url]; rfl
    have owner := (registered id r hr).2
    rw [same] at owner
    exact Option.some.inj (owner.symm.trans (registered id' r' hr').2)
  · obtain ⟨r, view⟩ | ⟨listed, view⟩ := h id
    · exact ⟨r, view.record, ((view.owned key).mp hk).symm⟩
    · exact ((view.owned key).mp hk).elim

theorem inv_empty : Inv {} where
  started _ _ h := by simp at h
  settled _ _ := Or.inr ⟨false, rfl, rfl, by simp⟩
  distinct _ _ _ _ _ h := by simp at h

theorem run_inv {s : Store} {ls : List Step} (careful : machine.Along Careful {} ls)
    (run : machine.exec {} ls = some s) (apart : Apart s) : Inv s :=
  machine.invariant_along (I := fun s => Apart s → Inv s)
    (fun _ _ _ h ok hl apart => (h ok.1).next ok apart hl) (fun _ => inv_empty) careful run apart

theorem apart_of_ended {s : Store} (h : ∀ call ∈ s.calls, call.stage.ended) : Apart s := by
  refine List.pairwise_of_forall_mem_list fun a ha b _ => Or.inr ?_
  have idle : ∀ stage : Stage, stage.ended → stage.serviceId = none ∧ stage.target = none := by
    intro stage ended
    cases stage <;> first | exact ⟨rfl, rfl⟩ | cases ended
  obtain ⟨none, aimless⟩ := idle a.stage (h a ha)
  simp [none, aimless]

theorem registry_consistent (ls : List Step) (s : Store)
    (run : machine.exec {} ls = some s) (careful : machine.Along Careful {} ls) :
    ((∀ call ∈ s.calls, call.stage.ended) → s.keys.Consistent) ∧
      ∀ before l after a b, ls = before ++ l :: after → machine.exec {} before = some a →
        next a l = some b → ∀ (n : Nat) (call call' : Call), a.calls[n]? = some call →
          call.stage.ended = false → b.calls[n]? = some call' → call'.stage = .raised →
            ∀ id, call.stage.serviceId = some id ∨ call.stage.first →
              b.keys.Same call'.found id := by
  constructor
  · intro ended
    have inv := run_inv careful run (apart_of_ended ended)
    refine consistent_of_settled fun id => inv.settled id fun n call hn open' => ?_
    have := ended call (List.mem_of_getElem? hn)
    cases hs : call.stage <;> simp [hs, Stage.ended, Stage.serviceId] at this open'
  · rintro before l after a b rfl ha hl n call call' hn live hn' raised id mine
    obtain ⟨first, rest⟩ := careful.of_append ha
    have inv := run_inv first ha rest.1.1
    exact raised_as_found inv rest.1 hl hn live hn' raised mine

def service (id url : String) : ServiceRecord :=
  ⟨id, id, url, "dev", [], "none", .registered, none, none, none, none, none⟩

def createOf (n : Nat) (r : ServiceRecord) : List Step :=
  .call (.create r) :: List.replicate 3 (.command n)

/-- Two creates that overlap, for the same base URL; the second takes its record back. -/
def overlappingCreates : List Step :=
  [.call (.create (service "a" "http://x")), .call (.create (service "b" "http://x")),
    .command 0, .command 1, .command 0, .command 1, .command 0, .command 1]

/-- Two services are moved to the same base URL at the same time. -/
def overlappingUpdates : List Step :=
  createOf 0 (service "a" "http://a") ++ createOf 1 (service "b" "http://b") ++
    [.call (.update (service "a" "http://x")), .call (.update (service "b" "http://x")),
      .command 2, .command 2, .command 3, .command 3] ++
    List.replicate 4 (.command 2) ++ List.replicate 4 (.command 3)

theorem overlapping_creates_consistent :
    ∃ s, machine.exec {} overlappingCreates = some s ∧
      machine.Along Careful {} overlappingCreates ∧ s.keys.Consistent := by
  have ended : (machine.exec {} overlappingCreates).map
      (fun s => s.calls.all (·.stage.ended)) = some true := by decide
  have careful : machine.Along Careful {} overlappingCreates := by decide
  obtain ⟨s, run, all⟩ := Option.map_eq_some_iff.mp ended
  exact ⟨s, run, careful,
    (registry_consistent overlappingCreates s run careful).1 (by simpa using all)⟩

/-- Where the two services are. -/
def places (s : Store) : Option ((String × String) × String × String) := do
  let a ← s.keys.records "a"
  let b ← s.keys.records "b"
  return ((a.environment, a.baseUrl), b.environment, b.baseUrl)

theorem overlapping_updates_share_url :
    ∃ s, machine.exec {} overlappingUpdates = some s ∧ (∀ call ∈ s.calls, call.stage.ended) ∧
      ¬ s.keys.Consistent := by
  have ran : (machine.exec {} overlappingUpdates).map
      (fun s => (s.calls.all (·.stage.ended), places s)) =
        some (true, some (("dev", "http://x"), "dev", "http://x")) := by decide
  obtain ⟨s, run, seen⟩ := Option.map_eq_some_iff.mp ran
  obtain ⟨ended, shared⟩ := Prod.mk.inj seen
  refine ⟨s, run, by simpa using ended, fun consistent => ?_⟩
  obtain ⟨a, ha, hb⟩ := Option.bind_eq_some_iff.mp shared
  obtain ⟨b, hb, same⟩ := Option.bind_eq_some_iff.mp hb
  simp only [Option.pure_def, Option.some.injEq, Prod.mk.injEq] at same
  obtain ⟨⟨ea, ua⟩, eb, ub⟩ := same
  have one := consistent.unique "a" "b" a b ha hb (ea.trans eb.symm) (ua.trans ub.symm)
  exact absurd one (by decide)

end Relayna.Studio.Registry
