import Relayna.Foundation.Failing
import Relayna.Studio.ControlPlane

/-!
# References between services and profiles

`Db.Sound` is what holds of every state that is committed. Each transaction knows something of
the rows that its locks guard (`Stage.Ok`): what another one commits does not touch them, and
when it commits itself, what it knows keeps the state sound.
-/
namespace Relayna.Studio.ControlPlane

open Profiles Transition Locking

variable (x : Library)

/-- The id names a profile of the environment and the provider. -/
def Db.Names (db : Db) (environment : String) (provider : Provider) (id : String) : Prop :=
  ∃ p ∈ db.profiles, p.id = id ∧ p.environment = environment ∧ p.provider = provider

/-- Every profile that the record is bound to is there. -/
def Db.Valid (db : Db) (r : ServiceRecord) : Prop :=
  ∀ provider id, r.profileId provider = some id → db.Names r.environment provider id

/-- No two profiles of an environment and a provider have the same name. -/
def Db.Unambiguous (db : Db) : Prop :=
  ∀ p ∈ db.profiles, ∀ q ∈ db.profiles, p.environment = q.environment → p.provider = q.provider →
    x.casefold p.name = x.casefold q.name → p = q

def Db.Live (db : Db) (serviceId : String) : Prop :=
  ∃ row ∈ db.services, row.id = serviceId ∧ row.deleted = false

structure Db.Sound (db : Db) : Prop where
  bound : ∀ row ∈ db.services, row.deleted = false → db.Valid row.record
  names : db.Unambiguous x
  loads : ∀ l ∈ db.loads, db.Live l.serviceId
  serviceIds : (db.services.map ServiceRow.id).Nodup
  profileIds : (db.profiles.map Profile.id).Nodup

/-- No service is bound to the profile. -/
def Db.Unused (db : Db) (id : String) : Prop :=
  ∀ row ∈ db.services, row.deleted = false → ∀ provider, row.record.profileId provider ≠ some id

/-- The two profiles have the same endpoint, tenant and mode. -/
def SameEndpoint (p q : Profile) : Prop :=
  p.authMode = q.authMode ∧ p.baseUrl = q.baseUrl ∧ p.tenantId = q.tenantId

/-- What a save knows of the profile that it writes. -/
structure Db.Writes (db : Db) (payload : ProfileInput) (profileId : Option String) (p : Profile) :
    Prop where
  revision : p.revision = (db.profile p.id).elim 0 Profile.revision + 1
  new : profileId = none → db.profile p.id = none
  current : ∀ id ∈ profileId, p.id = id ∧ ∃ q, db.profile id = some q ∧
    payload.revision = some q.revision ∧ p.environment = q.environment ∧ p.provider = q.provider
  name : ∀ q ∈ db.profiles, q.id ≠ p.id → q.environment = p.environment →
    q.provider = p.provider → x.casefold q.name ≠ x.casefold p.name
  endpoint : p.authMode = payload.authMode ∧ p.baseUrl = payload.baseUrl ∧
    p.tenantId = payload.tenantId
  entered : p.authMode ≠ .none → payload.credentials.entries ≠ [] →
    ∃ moment, p.credentialCipher =
      some (x.fernet.encrypt moment (x.dumps payload.credentials))
  kept : p.authMode ≠ .none → payload.credentials.entries = [] →
    ∃ q, db.profile p.id = some q ∧ SameEndpoint p q ∧ p.credentialCipher = q.credentialCipher

def Effect.Ok (db : Db) : Effect → Prop
  | .service r => db.Valid r
  | .delete r keys => ∀ l ∈ db.loads, l.serviceId = r.serviceId → l.key ∈ keys
  | .profile payload id p => db.Writes x payload id p
  | .removeProfile id revision =>
    (∃ p, db.profile id = some p ∧ revision = p.revision) ∧ db.Unused id
  | .load l | .keepLoad l => db.Live l.serviceId
  | .removeLoad _ => True

def Stage.Ok (db : Db) : Stage → Prop
  | .bindProfile _ r todo =>
    ∀ provider id, r.profileId provider = some id → (provider, id) ∈ todo ∨
      db.Names r.environment provider id
  | .selectRow _ r | .insertRow r | .updateRow r => db.Valid r
  | .saveOthers payload id previous =>
    previous = id.bind db.profile ∧ (id.isSome → previous.isSome) ∧
      ∀ p ∈ previous, payload.revision = some p.revision ∧
        payload.environment = p.environment ∧ payload.provider = p.provider
  | .saveUpsert payload id p => db.Writes x payload id p
  | .removeUses id revision => ∃ p, db.profile id = some p ∧ revision = p.revision
  | .removeDelete id revision => (Effect.removeProfile id revision).Ok x db
  | .loadInsert l | .loadRead l _ => db.Live l.serviceId
  | .commit effect => effect.Ok x db
  | _ => True

/-- The transaction holds the lock. -/
def Stage.Holds (stage : Stage) (lock : Lock) : Prop := lock ∈ stage.locks

structure Inv (s : State) : Prop where
  sound : s.db.Sound x
  stages : ∀ (n : Nat) (stage : Stage), s.calls[n]? = some stage → stage.Ok x s.db
  exclusive : Exclusive Stage.Holds s.calls

variable {x}

/-! ## Records -/

theorem mem_bound {r : ServiceRecord} {b : Provider × String} :
    b ∈ r.bound ↔ r.profileId b.1 = some b.2 := by
  obtain ⟨provider, id⟩ := b
  simp only [ServiceRecord.bound, List.mem_filterMap, Option.map_eq_some_iff, Prod.mk.injEq]
  constructor
  · rintro ⟨_, -, _, found, rfl, rfl⟩
    exact found
  · intro found
    exact ⟨provider, by cases provider <;> simp, id, found, rfl, rfl⟩

theorem profileId_effective (r : ServiceRecord) (provider : Provider) (p : Profile)
    (other : Provider) : (r.effective provider p).profileId other = r.profileId other := by
  unfold ServiceRecord.effective
  split
  · rename_i config found
    cases provider <;> cases other <;>
      simp_all [ServiceRecord.profileId, ServiceRecord.config, ServiceRecord.withConfig,
        Profiles.effective]
  · rfl

theorem effective_same (r : ServiceRecord) (provider : Provider) (p : Profile) :
    (r.effective provider p).serviceId = r.serviceId ∧
      (r.effective provider p).environment = r.environment := by
  unfold ServiceRecord.effective
  split
  · cases provider <;> exact ⟨rfl, rfl⟩
  · exact ⟨rfl, rfl⟩

theorem unbound {r : ServiceRecord} (h : r.bound = []) (provider : Provider) :
    r.profileId provider = none := by
  cases found : r.profileId provider with
  | none => rfl
  | some id =>
    have mem : (provider, id) ∈ r.bound := mem_bound.mpr found
    rw [h] at mem
    cases mem

/-- A record that takes no advisory lock is bound to nothing. -/
theorem unbound_of_locks {r : ServiceRecord} (h : Lock.advisory ∉ r.locks) : r.bound = [] := by
  by_contra bound
  rw [ServiceRecord.locks, if_neg bound] at h
  exact h (List.mem_singleton_self _)

/-! ## What the other transactions see of a commit -/

/-- Profiles change under the advisory lock only. -/
theorem profiles_apply {db : Db} {e : Effect} (h : Lock.advisory ∉ e.locks) :
    (db.apply e).profiles = db.profiles := by
  cases e <;> first | rfl | simp [Effect.locks] at h

/-- A row of a service changes under its lock only. -/
theorem mem_services_apply {db : Db} {e : Effect} (unique : (db.services.map ServiceRow.id).Nodup)
    {row : ServiceRow} (h : Lock.service row.id ∉ e.locks) :
    row ∈ (db.apply e).services ↔ row ∈ db.services := by
  have put : ∀ (r : ServiceRecord) (deleted : Bool), r.serviceId ≠ row.id →
      (row ∈ Keyed.put ServiceRow.id ⟨r, deleted⟩ db.services ↔ row ∈ db.services) := by
    intro r deleted ne
    rw [Keyed.mem_put unique]
    constructor
    · rintro (rfl | ⟨mem, -⟩)
      · exact absurd rfl ne
      · exact mem
    · exact fun mem => Or.inr ⟨mem, Ne.symm ne⟩
  cases e with
  | service r =>
    refine put r false fun same => h ?_
    simp [Effect.locks, same]
  | delete r keys =>
    refine put r true fun same => h ?_
    simp [Effect.locks, same]
  | _ => rfl

theorem Db.Live.apply {db : Db} {e : Effect} {id : String} (h : db.Live id)
    (unique : (db.services.map ServiceRow.id).Nodup) (free : Lock.service id ∉ e.locks) :
    (db.apply e).Live id := by
  obtain ⟨row, mem, rfl, live⟩ := h
  exact ⟨row, (mem_services_apply unique free).mpr mem, rfl, live⟩

/-- A service becomes bound under the advisory lock only. -/
theorem Db.Unused.apply {db : Db} {e : Effect} {id : String} (h : db.Unused id)
    (unique : (db.services.map ServiceRow.id).Nodup) (free : Lock.advisory ∉ e.locks) :
    (db.apply e).Unused id := by
  intro row mem live provider
  cases e with
  | service r =>
    obtain rfl | ⟨mem, -⟩ := (Keyed.mem_put unique).mp mem
    · have none : r.bound = [] := unbound_of_locks fun held => free (List.mem_cons_of_mem _ held)
      rw [unbound none]
      nofun
    · exact h row mem live provider
  | delete r keys =>
    obtain rfl | ⟨mem, -⟩ := (Keyed.mem_put unique).mp mem
    · cases live
    · exact h row mem live provider
  | _ => exact h row mem live provider

/-- Load profiles of a service are added under the lock of its row only. -/
theorem mem_loads_apply {db : Db} {e : Effect} {l : Load} (h : l ∈ (db.apply e).loads)
    (free : Lock.service l.serviceId ∉ e.locks) : l ∈ db.loads := by
  cases e with
  | load l' =>
    obtain rfl | mem := Keyed.mem_of_mem_put h
    · simp [Effect.locks] at free
    · exact mem
  | delete | removeLoad => exact (List.mem_filter.mp h).1
  | _ => exact h

theorem Db.Valid.apply {db : Db} {e : Effect} {r : ServiceRecord} (h : db.Valid r)
    (free : Lock.advisory ∈ r.locks → Lock.advisory ∉ e.locks) : (db.apply e).Valid r := by
  intro provider id found
  have mem : (provider, id) ∈ r.bound := mem_bound.mpr found
  have bound : r.bound ≠ [] := List.ne_nil_of_mem mem
  have held : Lock.advisory ∈ r.locks := by
    rw [ServiceRecord.locks, if_neg bound]
    exact List.mem_singleton_self _
  unfold Db.Names
  rw [profiles_apply (free held)]
  exact h provider id found

theorem Effect.Ok.apply {db : Db} {e mine : Effect} (h : mine.Ok x db)
    (unique : (db.services.map ServiceRow.id).Nodup)
    (free : ∀ lock ∈ mine.locks, lock ∉ e.locks) : mine.Ok x (db.apply e) := by
  cases mine with
  | service r => exact Db.Valid.apply h fun held => free _ (List.mem_cons_of_mem _ held)
  | delete r keys =>
    intro l mem same
    refine h l (mem_loads_apply mem ?_) same
    rw [same]
    exact free _ (List.mem_singleton_self _)
  | profile payload id p =>
    have same : (db.apply e).profiles = db.profiles :=
      profiles_apply (free _ (List.mem_singleton_self _))
    have found : (db.apply e).profile = db.profile := by
      funext id
      rw [Db.profile, same]
      rfl
    exact ⟨by rw [found]; exact h.revision, by rw [found]; exact h.new,
      by rw [found]; exact h.current, by rw [same]; exact h.name, h.endpoint, h.entered,
      by rw [found]; exact h.kept⟩
  | removeProfile id revision =>
    have locked := free _ (List.mem_singleton_self _)
    obtain ⟨p, found, rev⟩ := h.1
    refine ⟨⟨p, ?_, rev⟩, h.2.apply unique locked⟩
    rw [Db.profile, profiles_apply locked]
    exact found
  | load l | keepLoad l => exact Db.Live.apply h unique (free _ (List.mem_singleton_self _))
  | removeLoad => trivial

/-- What a transaction knows stays true when another one commits. -/
theorem Stage.Ok.apply {db : Db} {e : Effect} {stage : Stage} (h : stage.Ok x db)
    (unique : (db.services.map ServiceRow.id).Nodup)
    (free : ∀ lock ∈ stage.locks, lock ∉ e.locks) : stage.Ok x (db.apply e) := by
  have profiles : Lock.advisory ∈ stage.locks →
      (db.apply e).profiles = db.profiles ∧ (db.apply e).profile = db.profile := by
    intro held
    have same : (db.apply e).profiles = db.profiles := profiles_apply (free _ held)
    refine ⟨same, funext fun id => ?_⟩
    rw [Db.profile, same]
    rfl
  cases stage with
  | bindProfile create r todo =>
    have same := (profiles (List.mem_singleton_self _)).1
    intro provider id found
    refine (h provider id found).imp_right ?_
    rintro ⟨p, mem, rest⟩
    exact ⟨p, same ▸ mem, rest⟩
  | selectRow create r => exact Db.Valid.apply h fun held => free _ held
  | insertRow r => exact Db.Valid.apply h fun held => free _ held
  | updateRow r => exact Db.Valid.apply h fun held => free _ (List.mem_cons_of_mem _ held)
  | saveOthers payload id previous =>
    obtain ⟨is, rest⟩ := h
    refine ⟨?_, rest⟩
    rw [(profiles (List.mem_singleton_self _)).2]
    exact is
  | saveUpsert payload id p =>
    have known : (Effect.profile payload id p).Ok x db := h
    exact known.apply unique free
  | removeUses id revision =>
    obtain ⟨p, found, rev⟩ := h
    refine ⟨p, ?_, rev⟩
    rw [(profiles (List.mem_singleton_self _)).2]
    exact found
  | removeDelete id revision =>
    have known : (Effect.removeProfile id revision).Ok x db := h
    exact known.apply unique free
  | loadInsert l | loadRead l _ =>
    exact Db.Live.apply h unique (free _ (List.mem_singleton_self _))
  | commit mine => exact Effect.Ok.apply h unique free
  | _ => trivial

/-! ## A commit -/

theorem Db.Names.of_profiles {db db' : Db} {environment : String} {provider : Provider}
    {id : String} (h : db.Names environment provider id)
    (kept : ∀ p ∈ db.profiles, p.id = id → ∃ q ∈ db'.profiles, q.id = p.id ∧
      q.environment = p.environment ∧ q.provider = p.provider) :
    db'.Names environment provider id := by
  obtain ⟨p, mem, rfl, env, prov⟩ := h
  obtain ⟨q, mem', same, env', prov'⟩ := kept p mem rfl
  exact ⟨q, mem', same, env'.trans env, prov'.trans prov⟩

theorem Db.Sound.service {db : Db} (h : db.Sound x) {r : ServiceRecord} (valid : db.Valid r) :
    (db.apply (.service r)).Sound x := by
  refine ⟨fun row mem live => ?_, h.names, fun l mem => ?_, Keyed.nodup_put h.serviceIds,
    h.profileIds⟩
  · obtain rfl | ⟨mem, -⟩ := (Keyed.mem_put h.serviceIds).mp mem
    · exact valid
    · exact h.bound row mem live
  · obtain ⟨row, there, same, live⟩ := h.loads l mem
    by_cases mine : r.serviceId = row.id
    · exact ⟨⟨r, false⟩, (Keyed.mem_put h.serviceIds).mpr (Or.inl rfl), mine.trans same, rfl⟩
    · exact ⟨row, (Keyed.mem_put h.serviceIds).mpr (Or.inr ⟨there, Ne.symm mine⟩), same, live⟩

theorem Db.Sound.delete {db : Db} (h : db.Sound x) {r : ServiceRecord}
    {keys : List (String × String × String)}
    (all : ∀ l ∈ db.loads, l.serviceId = r.serviceId → l.key ∈ keys) :
    (db.apply (.delete r keys)).Sound x := by
  refine ⟨fun row mem live => ?_, h.names, fun l mem => ?_, Keyed.nodup_put h.serviceIds,
    h.profileIds⟩
  · obtain rfl | ⟨mem, -⟩ := (Keyed.mem_put h.serviceIds).mp mem
    · cases live
    · exact h.bound row mem live
  · obtain ⟨mem, kept⟩ := List.mem_filter.mp mem
    obtain ⟨row, there, same, live⟩ := h.loads l mem
    have other : row.id ≠ r.serviceId := by
      intro mine
      exact absurd (all l mem (same.symm.trans mine)) (by simpa using kept)
    exact ⟨row, (Keyed.mem_put h.serviceIds).mpr (Or.inr ⟨there, other⟩), same, live⟩

theorem Db.Sound.profile {db : Db} (h : db.Sound x) {payload : ProfileInput} {id : Option String}
    {p : Profile} (writes : db.Writes x payload id p) :
    (db.apply (.profile payload id p)).Sound x := by
  have mem : ∀ {q : Profile}, q ∈ (db.apply (.profile payload id p)).profiles ↔
      q = p ∨ q ∈ db.profiles ∧ q.id ≠ p.id := Keyed.mem_put h.profileIds
  refine ⟨fun row there live provider bound found => ?_, fun a ha b hb env prov name => ?_,
    h.loads, h.serviceIds, Keyed.nodup_put h.profileIds⟩
  · refine (h.bound row there live provider bound found).of_profiles fun q hq _ => ?_
    by_cases same : q.id = p.id
    · -- The profile is replaced, and stays where it was.
      have stored : db.profile p.id = some q := same ▸ Keyed.get?_of_mem h.profileIds hq
      refine ⟨p, mem.mpr (Or.inl rfl), same.symm, ?_⟩
      cases id with
      | none =>
        rw [writes.new rfl] at stored
        cases stored
      | some id =>
        obtain ⟨rfl, q', found, -, env, prov⟩ := writes.current id rfl
        obtain rfl : q = q' := Option.some.inj (stored.symm.trans found)
        exact ⟨env, prov⟩
    · exact ⟨q, mem.mpr (Or.inr ⟨hq, same⟩), rfl, rfl, rfl⟩
  · obtain rfl | ⟨ha', na⟩ := mem.mp ha
    · obtain rfl | ⟨hb', nb⟩ := mem.mp hb
      · rfl
      · exact absurd name.symm (writes.name b hb' nb env.symm prov.symm)
    · obtain rfl | ⟨hb', nb⟩ := mem.mp hb
      · exact absurd name (writes.name a ha' na env prov)
      · exact h.names a ha' b hb' env prov name

theorem Db.Sound.removeProfile {db : Db} (h : db.Sound x) {id : String} {revision : Int}
    (unused : db.Unused id) : (db.apply (.removeProfile id revision)).Sound x := by
  refine ⟨fun row there live provider bound found => ?_, fun a ha b hb => ?_, h.loads,
    h.serviceIds, h.profileIds.sublist (List.filter_sublist.map _)⟩
  · refine (h.bound row there live provider bound found).of_profiles fun q hq same => ?_
    refine ⟨q, List.mem_filter.mpr ⟨hq, ?_⟩, rfl, rfl, rfl⟩
    have other : q.id ≠ id := by
      rintro rfl
      exact unused row there live provider (same ▸ found)
    simpa using other
  · exact h.names a (List.mem_filter.mp ha).1 b (List.mem_filter.mp hb).1

/-- What a transaction knows keeps the state sound when it commits. -/
theorem Db.Sound.apply {db : Db} (h : db.Sound x) {e : Effect} (ok : e.Ok x db) :
    (db.apply e).Sound x := by
  cases e with
  | service r => exact h.service ok
  | delete r keys => exact h.delete ok
  | profile payload id p => exact h.profile ok
  | removeProfile id revision => exact h.removeProfile ok.2
  | load l =>
    refine ⟨h.bound, h.names, fun l' mem => ?_, h.serviceIds, h.profileIds⟩
    obtain rfl | mem := Keyed.mem_of_mem_put mem
    · exact ok
    · exact h.loads l' mem
  | keepLoad l => exact h
  | removeLoad key =>
    exact ⟨h.bound, h.names, fun l mem => h.loads l (List.mem_filter.mp mem).1, h.serviceIds,
      h.profileIds⟩

/-! ## A statement -/

theorem saved_ok {payload : ProfileInput} {id : Option String} {previous : Option Profile}
    {others : List Profile} {uuid : String} {moment : Nat} {p : Profile}
    (h : saved x payload id previous others uuid moment = .ok p) :
    payload.nameTaken x id others = false ∧
      (payload.authMode ≠ .none → payload.cipher x previous moment ≠ none) ∧
      p = payload.profile (id.getD uuid) previous (payload.cipher x previous moment) := by
  unfold saved at h
  split_ifs at h with taken
  obtain ⟨-, -, h⟩ := Failing.bind_ok.mp h
  dsimp only at h
  split_ifs at h with missing
  refine ⟨Bool.eq_false_iff.mpr taken, fun mode none => missing ⟨mode, ?_⟩, (Except.ok.inj h).symm⟩
  rw [none]
  rfl

/-- Without credentials in the payload, the cipher text is the one before, of the same
endpoint. -/
theorem cipher_kept {payload : ProfileInput} {previous : Option Profile} {moment : Nat}
    (mode : payload.authMode ≠ .none) (omitted : payload.credentials.entries = [])
    (h : payload.cipher x previous moment ≠ none) :
    ∃ q, previous = some q ∧ payload.authMode = q.authMode ∧ payload.baseUrl = q.baseUrl ∧
      payload.tenantId = q.tenantId ∧
      payload.cipher x previous moment = q.credentialCipher := by
  cases previous with
  | none => simp [ProfileInput.cipher, mode, omitted] at h
  | some q =>
    by_cases same : q.authMode = payload.authMode ∧ q.baseUrl = payload.baseUrl ∧
        q.tenantId = payload.tenantId
    · refine ⟨q, rfl, same.1.symm, same.2.1.symm, same.2.2.symm, ?_⟩
      rw [ProfileInput.cipher, if_neg mode, if_neg (not_not.mpr omitted), Option.bind_some,
        if_pos same]
    · rw [ProfileInput.cipher, if_neg mode, if_neg (not_not.mpr omitted), Option.bind_some,
        if_neg same] at h
      exact absurd rfl h

theorem writes_of_saved {db : Db} {payload : ProfileInput} {id : Option String}
    {previous : Option Profile} {uuid : String} {moment : Nat} {p : Profile}
    (known : (Stage.saveOthers payload id previous).Ok x db) (fresh : db.profile uuid = none)
    (h : saved x payload id previous db.profiles uuid moment = .ok p) :
    db.Writes x payload id p := by
  obtain ⟨free, ciphered, rfl⟩ := saved_ok h
  obtain ⟨is, there, checked⟩ := known
  have stored : db.profile (id.getD uuid) = previous := by
    cases id with
    | none => exact fresh.trans is.symm
    | some id => exact is.symm
  refine ⟨?_, fun new => ?_, fun id' hid => ?_, fun q mem other env prov name => ?_,
    ⟨rfl, rfl, rfl⟩,
    fun mode given => ⟨moment, ?_⟩, fun mode omitted => ?_⟩
  · change _ = (db.profile (id.getD uuid)).elim 0 Profile.revision + 1
    rw [stored]
    rfl
  · subst new
    exact fresh
  · obtain rfl := hid
    obtain ⟨q, hq⟩ := Option.isSome_iff_exists.mp (there rfl)
    obtain ⟨rev, env, prov⟩ := checked q hq
    exact ⟨rfl, q, stored.trans hq, rev, env, prov⟩
  · refine absurd ?_ (Bool.eq_false_iff.mp free)
    refine List.any_eq_true.mpr ⟨q, mem, decide_eq_true ⟨?_, env, prov, name⟩⟩
    intro same
    cases id with
    | none => cases same
    | some id => exact other (Option.some.inj same)
  · have mode' : payload.authMode ≠ .none := mode
    change payload.cipher x previous moment = _
    rw [ProfileInput.cipher, if_neg mode', if_pos given]
  · have mode' : payload.authMode ≠ .none := mode
    obtain ⟨q, hq, auth, url, tenant, cipher⟩ := cipher_kept mode' omitted (ciphered mode')
    exact ⟨q, stored.trans hq, ⟨auth, url, tenant⟩, cipher⟩

theorem checkPrevious_ok {payload : ProfileInput} {p : Profile}
    (h : payload.checkPrevious p = .ok ()) : payload.revision = some p.revision ∧
      payload.environment = p.environment ∧ payload.provider = p.provider := by
  unfold ProfileInput.checkPrevious at h
  split_ifs at h with stale moved
  simp only [not_or, not_not] at stale moved
  exact ⟨stale, moved.2, moved.1⟩

/-- A lock that is not held. -/
theorem free_of_held {s : State} {lock : Lock} (h : ¬ s.held lock) :
    ∀ other ∈ s.calls, ¬ other.Holds lock := by
  intro other mem holds
  exact h (List.any_eq_true.mpr ⟨other, mem, decide_eq_true holds⟩)

/-- What a stage takes is free. -/
def Takes (s : State) (stage stage' : Stage) : Prop :=
  ∀ lock, stage'.Holds lock → stage.Holds lock ∨ ∀ other ∈ s.calls, ¬ other.Holds lock

theorem Takes.of_subset {s : State} {stage stage' : Stage}
    (h : ∀ lock ∈ stage'.locks, lock ∈ stage.locks) : Takes s stage stage' :=
  fun lock held => Or.inl (h lock held)

/-- A stage that takes one more lock. -/
theorem Takes.one {s : State} {stage stage' : Stage} {lock : Lock} (free : ¬ s.held lock)
    (h : ∀ other ∈ stage'.locks, other = lock ∨ other ∈ stage.locks) : Takes s stage stage' := by
  intro other held
  obtain rfl | held := h other held
  · exact Or.inr (free_of_held free)
  · exact Or.inl held

theorem mem_service_of_find {db : Db} {id : String} {row : ServiceRow}
    (h : db.service id = some row) : row ∈ db.services ∧ row.id = id :=
  ⟨Keyed.mem_of_get? h, Keyed.key_of_get? h⟩

theorem await_ok {s : State} {uuid : String} {moment : Nat} {stage stage' : Stage}
    (h : stage.Ok x s.db) (fresh : s.db.profile uuid = none)
    (step : await x s uuid moment stage = some stage') :
    stage'.Ok x s.db ∧ Takes s stage stage' := by
  have idle : ∀ {error : HTTPException}, (Stage.raised error).Ok x s.db ∧
      Takes s stage (.raised error) := ⟨trivial, .of_subset nofun⟩
  cases stage with
  | bindLock create r =>
    simp only [await] at step
    split_ifs at step with waits
    obtain rfl := Option.some.inj step
    exact ⟨fun provider id found => Or.inl (mem_bound.mpr found),
      .one waits fun lock held => Or.inl (List.mem_singleton.mp held)⟩
  | bindProfile create r todo =>
    cases todo with
    | nil =>
      obtain rfl := Option.some.inj step
      refine ⟨fun provider id found => (h provider id found).resolve_left (by simp), ?_⟩
      refine .of_subset fun lock held => ?_
      change lock ∈ r.locks at held
      unfold ServiceRecord.locks at held
      split_ifs at held
      · cases held
      · exact held
    | cons b todo =>
      obtain ⟨provider, id⟩ := b
      simp only [await] at step
      split at step
      · obtain rfl := Option.some.inj step
        exact idle
      · rename_i p found
        split_ifs at step with fits
        · obtain rfl := Option.some.inj step
          refine ⟨fun other id' bound => ?_, .of_subset fun lock held => held⟩
          rw [profileId_effective] at bound
          rw [(effective_same r provider p).2]
          obtain todo | names := h other id' bound
          · obtain same | todo := List.mem_cons.mp todo
            · obtain ⟨rfl, rfl⟩ := Prod.mk.inj same
              have ⟨prov, env⟩ : p.provider = _ ∧ p.environment = _ := of_decide_eq_true fits
              exact Or.inr ⟨p, Keyed.mem_of_get? found, Keyed.key_of_get? found, env, prov⟩
            · exact Or.inl todo
          · exact Or.inr names
        · obtain rfl := Option.some.inj step
          exact idle
  | selectRow create r =>
    simp only [await] at step
    by_cases waits : s.held (.service r.serviceId)
    · rw [if_pos waits] at step
      cases step
    rw [if_neg waits] at step
    split at step
    · obtain rfl := Option.some.inj step
      cases create
      · exact idle
      · exact ⟨h, .of_subset fun lock held => held⟩
    · rename_i row found
      by_cases there : row.deleted = create
      · rw [if_pos there] at step
        obtain rfl := Option.some.inj step
        exact ⟨h, .one waits fun lock held => List.mem_cons.mp held⟩
      · rw [if_neg there] at step
        obtain rfl := Option.some.inj step
        cases create <;> exact idle
  | insertRow r =>
    simp only [await] at step
    split_ifs at step with waits exists'
    · obtain rfl := Option.some.inj step
      exact idle
    · obtain rfl := Option.some.inj step
      exact ⟨h, .one waits fun lock held => List.mem_cons.mp held⟩
  | updateRow r =>
    obtain rfl := Option.some.inj step
    exact ⟨h, .of_subset fun lock held => held⟩
  | deleteRow id =>
    simp only [await] at step
    split_ifs at step with waits
    split at step
    · obtain rfl := Option.some.inj step
      exact idle
    · rename_i row found
      obtain ⟨-, rfl⟩ := mem_service_of_find found
      split_ifs at step
      · obtain rfl := Option.some.inj step
        exact idle
      · obtain rfl := Option.some.inj step
        exact ⟨trivial, .one waits fun lock held => Or.inl (List.mem_singleton.mp held)⟩
  | deleteLoads r =>
    obtain rfl := Option.some.inj step
    refine ⟨fun l mem same => ?_, .of_subset fun lock held => held⟩
    exact List.mem_map_of_mem (List.mem_filter.mpr ⟨mem, by simpa using same⟩)
  | saveLock payload id =>
    simp only [await] at step
    split_ifs at step with waits
    obtain rfl := Option.some.inj step
    exact ⟨trivial, .one waits fun lock held => Or.inl (List.mem_singleton.mp held)⟩
  | savePrevious payload id =>
    cases id with
    | none =>
      obtain rfl := Option.some.inj step
      exact ⟨⟨rfl, nofun, nofun⟩, .of_subset fun lock held => held⟩
    | some id =>
      simp only [await] at step
      split at step
      · obtain rfl := Option.some.inj step
        exact idle
      · rename_i p found
        obtain rfl := Option.some.inj step
        cases checked : payload.checkPrevious p with
        | error e => exact idle
        | ok _ =>
          refine ⟨⟨found.symm, fun _ => rfl, ?_⟩, .of_subset fun lock held => held⟩
          rintro _ ⟨⟩
          exact checkPrevious_ok checked
  | saveOthers payload id previous =>
    obtain rfl := Option.some.inj step
    cases made : saved x payload id previous s.db.profiles uuid moment with
    | error e => exact idle
    | ok p => exact ⟨writes_of_saved h fresh made, .of_subset fun lock held => held⟩
  | saveUpsert payload id p =>
    obtain rfl := Option.some.inj step
    exact ⟨h, .of_subset fun lock held => held⟩
  | removeLock id revision =>
    simp only [await] at step
    split_ifs at step with waits
    obtain rfl := Option.some.inj step
    exact ⟨trivial, .one waits fun lock held => Or.inl (List.mem_singleton.mp held)⟩
  | removeSelect id revision =>
    simp only [await] at step
    split at step
    · obtain rfl := Option.some.inj step
      exact idle
    · rename_i p found
      split_ifs at step with current
      · obtain rfl := Option.some.inj step
        exact ⟨⟨p, found, current⟩, .of_subset fun lock held => held⟩
      · obtain rfl := Option.some.inj step
        exact idle
  | removeUses id revision =>
    simp only [await] at step
    split_ifs at step with used
    · obtain rfl := Option.some.inj step
      exact idle
    · obtain rfl := Option.some.inj step
      refine ⟨⟨h, fun row mem live provider bound => used ?_⟩, .of_subset fun lock held => held⟩
      have config : (row.record.config provider).bind Config.profileId = some id :=
        (Option.filter_eq_some_iff.mp bound).1
      refine List.any_eq_true.mpr ⟨row, mem, ?_⟩
      rw [live, Bool.not_false, Bool.true_and]
      exact List.any_eq_true.mpr ⟨provider, by cases provider <;> simp, decide_eq_true config⟩
  | removeDelete id revision =>
    obtain rfl := Option.some.inj step
    exact ⟨h, .of_subset fun lock held => held⟩
  | loadSelect l =>
    simp only [await] at step
    split_ifs at step with waits active
    · obtain rfl := Option.some.inj step
      obtain ⟨row, found, is⟩ := (Option.any_eq_true _ _).mp active
      obtain ⟨mem, same⟩ := mem_service_of_find found
      have live : row.deleted = false := by
        cases deleted : row.deleted
        · rfl
        · simp [deleted] at is
      exact ⟨⟨row, mem, same, live⟩, .one waits fun lock held =>
        Or.inl (List.mem_singleton.mp held)⟩
    · obtain rfl := Option.some.inj step
      exact idle
  | loadInsert l =>
    obtain rfl := Option.some.inj step
    exact ⟨h, .of_subset fun lock held => held⟩
  | loadRead l inserted =>
    cases inserted with
    | true =>
      obtain rfl := Option.some.inj step
      exact ⟨h, .of_subset fun lock held => held⟩
    | false =>
      simp only [await] at step
      split_ifs at step
      · obtain rfl := Option.some.inj step
        exact ⟨h, .of_subset fun lock held => held⟩
      · obtain rfl := Option.some.inj step
        exact idle
  | loadDelete key =>
    obtain rfl := Option.some.inj step
    exact ⟨trivial, .of_subset nofun⟩
  | commit | returned | raised => cases step

/-! ## Every run -/

theorem registry_ok (create : Bool) (r : ServiceRecord) (db : Db) :
    (registry create r).Ok x db ∧ (registry create r).locks = [] := by
  unfold registry
  split_ifs with none
  · refine ⟨fun provider id found => ?_, ?_⟩
    · rw [unbound none] at found
      cases found
    · exact if_pos none
  · exact ⟨trivial, rfl⟩

theorem Operation.stage_ok (operation : Operation) (db : Db) :
    (operation.stage x).Ok x db ∧ (operation.stage x).locks = [] := by
  cases operation with
  | create r => exact registry_ok true r db
  | update r => exact registry_ok false r db
  | saveProfile payload id =>
    simp only [Operation.stage]
    split_ifs <;> exact ⟨trivial, rfl⟩
  | _ => exact ⟨trivial, rfl⟩

/-- What a step can do: a call begins, a statement is executed, a transaction ends without an
effect, or it commits. -/
theorem next_cases {s t : State} {l : Step} (hl : next x s l = some t) :
    (∃ operation, t = { s with calls := s.calls ++ [Operation.stage x operation] }) ∨
    (∃ (n : Nat) (stage stage' : Stage), s.calls[n]? = some stage ∧
      t = { s with calls := s.calls.set n stage' } ∧
      ((∃ uuid moment, l = .await n uuid moment ∧ await x s uuid moment stage = some stage') ∨
        ∃ error, stage' = .raised error)) ∨
    ∃ (n : Nat) (effect : Effect), s.calls[n]? = some (.commit effect) ∧
      t = { db := s.db.apply effect, calls := s.calls.set n (.returned effect) } := by
  cases l with
  | call operation => exact Or.inl ⟨operation, (Option.some.inj hl).symm⟩
  | await n uuid moment =>
    obtain ⟨stage, hn, step⟩ := Option.bind_eq_some_iff.mp hl
    obtain ⟨stage', awaited, rfl⟩ := Option.map_eq_some_iff.mp step
    exact Or.inr (Or.inl ⟨n, stage, stage', hn, rfl, Or.inl ⟨uuid, moment, rfl, awaited⟩⟩)
  | commit n =>
    obtain ⟨stage, hn, step⟩ := Option.bind_eq_some_iff.mp hl
    split at step
    · exact Or.inr (Or.inr ⟨n, _, hn, (Option.some.inj step).symm⟩)
    · cases step
  | fail n error =>
    obtain ⟨stage, hn, rfl⟩ := Option.map_eq_some_iff.mp hl
    obtain ⟨hn, -⟩ := Option.filter_eq_some_iff.mp hn
    exact Or.inr (Or.inl ⟨n, stage, _, hn, rfl, Or.inr ⟨error, rfl⟩⟩)

theorem Inv.move {s : State} {n : Nat} {stage stage' : Stage} (h : Inv x s)
    (hn : s.calls[n]? = some stage) (ok : stage'.Ok x s.db) (takes : Takes s stage stage') :
    Inv x { s with calls := s.calls.set n stage' } := by
  refine ⟨h.sound, fun m other hm => ?_, h.exclusive.set hn takes⟩
  obtain ⟨-, rfl⟩ | ⟨-, hm⟩ := set_some_cases hm
  · exact ok
  · exact h.stages m other hm

theorem Inv.next {s t : State} {l : Step} (h : Inv x s) (fresh : FreshIds s l)
    (hl : next x s l = some t) : Inv x t := by
  obtain ⟨operation, rfl⟩ | ⟨n, stage, stage', hn, rfl, ⟨uuid, moment, rfl, step⟩ | ⟨error, rfl⟩⟩ |
    ⟨n, effect, hn, rfl⟩ := next_cases hl
  · obtain ⟨ok, idle⟩ := operation.stage_ok (x := x) s.db
    refine ⟨h.sound, fun m other hm => ?_, h.exclusive.append fun lock held => ?_⟩
    · obtain hm | rfl := append_some_cases hm
      · exact h.stages m other hm
      · exact ok
    · unfold Stage.Holds at held
      rw [idle] at held
      cases held
  · obtain ⟨ok, takes⟩ := await_ok (h.stages n stage hn) fresh step
    exact h.move hn ok takes
  · exact h.move hn trivial (.of_subset nofun)
  · have ok := h.stages n _ hn
    refine ⟨h.sound.apply ok, fun m other hm => ?_, h.exclusive.set hn fun lock held => ?_⟩
    · obtain ⟨-, rfl⟩ | ⟨ne, hm⟩ := set_some_cases hm
      · trivial
      · refine (h.stages m other hm).apply h.sound.serviceIds fun lock held mine => ?_
        exact h.exclusive.not_holds hn hm ne mine held
    · cases held

theorem inv_empty : Inv x {} where
  sound := {
    bound := by simp
    names := by simp [Db.Unambiguous]
    loads := by simp
    serviceIds := List.nodup_nil
    profileIds := List.nodup_nil }
  stages _ _ h := by simp at h
  exclusive := exclusive_nil

theorem run_inv {s : State} {ls : List Step} (fresh : (machine x).Along FreshIds {} ls)
    (run : (machine x).exec {} ls = some s) : Inv x s :=
  (machine x).invariant_along (fun _ _ _ h ok hl => h.next ok hl) inv_empty fresh run

/-- A transaction that returns in this step has committed in it. -/
theorem committed_of_returned {a b : State} {l : Step} {n : Nat} {e e' : Effect}
    (hl : next x a l = some b) (before : a.calls[n]? = some (.commit e))
    (after : b.calls[n]? = some (.returned e')) : b.db = a.db.apply e := by
  obtain ⟨operation, rfl⟩ | ⟨m, stage, stage', hm, rfl, moved⟩ | ⟨m, effect, hm, rfl⟩ :=
    next_cases hl
  · rw [List.getElem?_append_left (List.getElem?_eq_some_iff.mp before).1, before] at after
    cases after
  · obtain ⟨rfl, rfl⟩ | ⟨-, same⟩ := set_some_cases after
    · obtain rfl := Option.some.inj (before.symm.trans hm)
      obtain ⟨uuid, moment, -, step⟩ | ⟨error, same⟩ := moved
      · cases step
      · cases same
    · cases before.symm.trans same
  · obtain ⟨rfl, -⟩ | ⟨-, same⟩ := set_some_cases after
    · obtain rfl := Stage.commit.inj (Option.some.inj (before.symm.trans hm))
      rfl
    · cases before.symm.trans same

/-- What a step does to the committed rows: nothing, or what a transaction commits. A save writes
the revision after the one that is stored, and it and a removal were asked for the one that is
stored. -/
structure Careful (a b : State) : Prop where
  commits : b.db = a.db ∨ ∃ (n : Nat) (effect : Effect), a.calls[n]? = some (.commit effect) ∧
    b.calls[n]? = some (.returned effect) ∧ b.db = a.db.apply effect
  saves : ∀ (n : Nat) (payload : ProfileInput) (id : Option String) (p : Profile),
    a.calls[n]? = some (.commit (.profile payload id p)) →
    b.calls[n]? = some (.returned (.profile payload id p)) →
      b.db.profile p.id = some p ∧
      p.revision = (a.db.profile p.id).elim 0 Profile.revision + 1 ∧
      ∀ id' ∈ id, p.id = id' ∧ ∃ q, a.db.profile id' = some q ∧ payload.revision = some q.revision
  removes : ∀ (n : Nat) (id : String) (revision : Int),
    a.calls[n]? = some (.commit (.removeProfile id revision)) →
    b.calls[n]? = some (.returned (.removeProfile id revision)) →
      b.db.profile id = none ∧ ∃ q, a.db.profile id = some q ∧ revision = q.revision
  revisions : ∀ id p q, a.db.profile id = some p → b.db.profile id = some q →
    q = p ∨ q.revision = p.revision + 1

theorem Inv.careful {a b : State} {l : Step} (h : Inv x a) (hl : ControlPlane.next x a l = some b) :
    Careful a b := by
  have commits : b.db = a.db ∨ ∃ (n : Nat) (effect : Effect),
      a.calls[n]? = some (.commit effect) ∧ b.calls[n]? = some (.returned effect) ∧
        b.db = a.db.apply effect := by
    obtain ⟨operation, rfl⟩ | ⟨m, stage, stage', hm, rfl, -⟩ | ⟨m, effect, hm, rfl⟩ :=
      next_cases hl
    · exact Or.inl rfl
    · exact Or.inl rfl
    · refine Or.inr ⟨m, effect, hm, ?_, rfl⟩
      exact List.getElem?_set_self (List.getElem?_eq_some_iff.mp hm).1
  refine ⟨commits, fun n payload id p before after => ?_, fun n id revision before after => ?_,
    fun id p q hp hq => ?_⟩
  · have writes : a.db.Writes x payload id p := h.stages n _ before
    refine ⟨?_, writes.revision, fun id' hid => ?_⟩
    · rw [committed_of_returned hl before after]
      exact Keyed.get?_put.trans (if_pos rfl)
    · obtain ⟨same, q, found, rev, -⟩ := writes.current id' hid
      exact ⟨same, q, found, rev⟩
  · have known : (Effect.removeProfile id revision).Ok x a.db := h.stages n _ before
    refine ⟨?_, known.1⟩
    rw [committed_of_returned hl before after]
    exact Keyed.get?_filter.trans (if_pos rfl)
  · obtain same | ⟨n, effect, hn, -, applied⟩ := commits
    · rw [same] at hq
      exact Or.inl (Option.some.inj (hq.symm.trans hp))
    · have ok := h.stages n _ hn
      rw [applied] at hq
      cases effect with
      | profile payload pid w =>
        have found : (if id = w.id then some w else a.db.profile id) = some q :=
          Keyed.get?_put.symm.trans hq
        split_ifs at found with mine
        · obtain rfl := Option.some.inj found
          subst mine
          have rev := Db.Writes.revision ok
          rw [hp] at rev
          exact Or.inr rev
        · exact Or.inl (Option.some.inj (found.symm.trans hp))
      | removeProfile pid revision =>
        have found : (if id = pid then none else a.db.profile id) = some q :=
          Keyed.get?_filter.symm.trans hq
        split_ifs at found
        exact Or.inl (Option.some.inj (found.symm.trans hp))
      | _ => exact Or.inl (Option.some.inj (hq.symm.trans hp))

theorem references_survive (ls : List Step) (s : State) (run : (machine x).exec {} ls = some s)
    (fresh : (machine x).Along FreshIds {} ls) :
    s.db.Sound x ∧
      ∀ before l after a b, ls = before ++ l :: after → (machine x).exec {} before = some a →
        next x a l = some b → Careful a b := by
  refine ⟨(run_inv fresh run).sound, ?_⟩
  rintro before l after a b rfl ha hl
  exact (run_inv (fresh.of_append ha).1 ha).careful hl

instance (s : State) : (l : Step) → Decidable (FreshIds s l)
  | .await _ uuid _ => inferInstanceAs (Decidable (s.db.profile uuid = none))
  | .call _ | .commit _ | .fail .. => inferInstanceAs (Decidable True)

def lokiInput : ProfileInput :=
  ⟨"logs", "dev", .loki, "http://loki", none, .none, {}, none⟩

/-- A service that is bound to the profile. -/
def boundService : ServiceRecord :=
  ⟨"a", "dev", false, some ⟨some "p", "http://loki", none⟩, none, none⟩

/-- A profile is saved and removed again; the removal overtakes a service that is to be bound to
the profile and waits for it. -/
def boundAndRemoved : List Step :=
  [.call (.saveProfile lokiInput none), .await 0 "p" 0, .await 0 "p" 0, .await 0 "p" 0,
    .await 0 "q" 0, .commit 0,
    .call (.create boundService), .call (.removeProfile "p" 1),
    .await 1 "q" 0, .await 1 "q" 0, .await 1 "q" 0, .await 1 "q" 0, .await 1 "q" 0, .commit 1,
    .await 2 "q" 0, .await 2 "q" 0, .await 2 "q" 0]

theorem bound_profile_stays :
    ∃ s, (machine plainLibrary).exec {} boundAndRemoved = some s ∧ s.db.Sound plainLibrary ∧
      (s.db.services.map ServiceRow.id, s.db.profiles.map Profile.id) = (["a"], ["p"]) := by
  have fresh : (machine plainLibrary).Along FreshIds {} boundAndRemoved := by decide
  have reached : ((machine plainLibrary).exec {} boundAndRemoved).map
      (fun s => (s.db.services.map ServiceRow.id, s.db.profiles.map Profile.id)) =
        some (["a"], ["p"]) := by decide
  obtain ⟨s, run, rows⟩ := Option.map_eq_some_iff.mp reached
  exact ⟨s, run, (references_survive boundAndRemoved s run fresh).1, rows⟩

end Relayna.Studio.ControlPlane
