import Relayna.Foundation.Keyed
import Relayna.Foundation.Locking
import Relayna.Studio.ObservabilityProfiles

/-!
# Services, observability profiles and load profiles in PostgreSQL

The transactions of the registry, of the observability profiles and of the imported load
profiles, one statement after the other, under read committed. A statement reads what is
committed; what a transaction writes is seen when it commits. `pg_advisory_xact_lock` and
`SELECT … FOR UPDATE` wait until nobody else holds the lock.

A transaction may fail at any statement: a unique index, a deadlock or a lost connection ends it
without an effect.
-/
namespace Relayna.Studio.ControlPlane

open Profiles Transition

/-! ## Rows -/

structure ServiceRecord where
  serviceId : String
  environment : String
  /-- The status is `disabled`. -/
  disabled : Bool
  logConfig : Option Config
  metricsConfig : Option Config
  traceConfig : Option Config
  deriving DecidableEq, Repr

namespace ServiceRecord

variable (r : ServiceRecord)

def config : Provider → Option Config
  | .loki => r.logConfig
  | .prometheus => r.metricsConfig
  | .tempo => r.traceConfig

def withConfig (config : Config) : Provider → ServiceRecord
  | .loki => { r with logConfig := some config }
  | .prometheus => { r with metricsConfig := some config }
  | .tempo => { r with traceConfig := some config }

/-- The profile id of a config, if it has one. -/
def profileId (provider : Provider) : Option String :=
  ((r.config provider).bind Config.profileId).filter (· ≠ "")

/-- The configs that are bound to profiles. -/
def bound : List (Provider × String) :=
  [Provider.loki, .prometheus, .tempo].filterMap fun provider =>
    (r.profileId provider).map fun id => (provider, id)

/-- The config with the endpoint of its profile. -/
def effective (provider : Provider) (p : Profile) : ServiceRecord :=
  match r.config provider with
  | some config => r.withConfig (Profiles.effective provider config p) provider
  | none => r

end ServiceRecord

structure ServiceRow where
  record : ServiceRecord
  deleted : Bool
  deriving DecidableEq, Repr

def ServiceRow.id (row : ServiceRow) : String := row.record.serviceId

structure LoadProfile where
  id : String
  content : String
  deriving DecidableEq, Repr

structure Load where
  serviceId : String
  environment : String
  profile : LoadProfile
  deriving DecidableEq, Repr

def Load.key (l : Load) : String × String × String := (l.serviceId, l.environment, l.profile.id)

/-- What is committed. -/
structure Db where
  services : List ServiceRow := []
  profiles : List Profile := []
  loads : List Load := []

def Db.service (db : Db) (id : String) : Option ServiceRow :=
  Keyed.get? ServiceRow.id id db.services

def Db.profile (db : Db) (id : String) : Option Profile := Keyed.get? Profile.id id db.profiles

def Db.load (db : Db) (key : String × String × String) : Option Load :=
  Keyed.get? Load.key key db.loads

/-! ## Transactions -/

inductive Operation where
  | create (r : ServiceRecord)
  | update (r : ServiceRecord)
  | delete (serviceId : String)
  | saveProfile (payload : ProfileInput) (profileId : Option String)
  | removeProfile (profileId : String) (revision : Int)
  | saveLoad (l : Load)
  | removeLoad (key : String × String × String)

/-- What a transaction has written, to be seen when it commits. -/
inductive Effect where
  | service (r : ServiceRecord)
  /-- The service is marked as deleted and its load profiles are gone. -/
  | delete (r : ServiceRecord) (loads : List (String × String × String))
  | profile (payload : ProfileInput) (profileId : Option String) (p : Profile)
  | removeProfile (profileId : String) (revision : Int)
  | load (l : Load)
  /-- The load profile was there. -/
  | keepLoad (l : Load)
  | removeLoad (key : String × String × String)
  deriving DecidableEq

def Db.apply (db : Db) : Effect → Db
  | .service r => { db with services := Keyed.put ServiceRow.id ⟨r, false⟩ db.services }
  | .delete r keys =>
    { db with
      services := Keyed.put ServiceRow.id ⟨r, true⟩ db.services
      loads := db.loads.filter (·.key ∉ keys) }
  | .profile _ _ p => { db with profiles := Keyed.put Profile.id p db.profiles }
  | .removeProfile id _ => { db with profiles := db.profiles.filter (Profile.id · ≠ id) }
  | .load l => { db with loads := Keyed.put Load.key l db.loads }
  | .keepLoad _ => db
  | .removeLoad key => { db with loads := db.loads.filter (Load.key · ≠ key) }

/-- The statement that a transaction is at. -/
inductive Stage where
  /-- `_validate_profile_bindings`. -/
  | bindLock (create : Bool) (r : ServiceRecord)
  | bindProfile (create : Bool) (r : ServiceRecord) (todo : List (Provider × String))
  /-- `SELECT … FOR UPDATE`. -/
  | selectRow (create : Bool) (r : ServiceRecord)
  | insertRow (r : ServiceRecord)
  | updateRow (r : ServiceRecord)
  | deleteRow (serviceId : String)
  | deleteLoads (r : ServiceRecord)
  | saveLock (payload : ProfileInput) (profileId : Option String)
  | savePrevious (payload : ProfileInput) (profileId : Option String)
  | saveOthers (payload : ProfileInput) (profileId : Option String) (previous : Option Profile)
  | saveUpsert (payload : ProfileInput) (profileId : Option String) (p : Profile)
  | removeLock (profileId : String) (revision : Int)
  | removeSelect (profileId : String) (revision : Int)
  | removeUses (profileId : String) (revision : Int)
  | removeDelete (profileId : String) (revision : Int)
  | loadSelect (l : Load)
  /-- `INSERT … ON CONFLICT DO NOTHING`. -/
  | loadInsert (l : Load)
  | loadRead (l : Load) (inserted : Bool)
  | loadDelete (key : String × String × String)
  | commit (effect : Effect)
  | returned (effect : Effect)
  | raised (error : HTTPException)
  deriving DecidableEq

inductive Lock
  /-- `pg_advisory_xact_lock(_LOCK)`. -/
  | advisory
  /-- The row of the service. -/
  | service (id : String)
  deriving DecidableEq, Repr

/-- An unbound service takes no advisory lock. -/
def ServiceRecord.locks (r : ServiceRecord) : List Lock := if r.bound = [] then [] else [.advisory]

def Effect.locks : Effect → List Lock
  | .service r => .service r.serviceId :: r.locks
  | .delete r _ => [.service r.serviceId]
  | .profile .. | .removeProfile .. => [.advisory]
  | .load l | .keepLoad l => [.service l.serviceId]
  | .removeLoad _ => []

/-- The locks that the transaction holds. -/
def Stage.locks : Stage → List Lock
  | .bindProfile .. => [.advisory]
  | .selectRow _ r | .insertRow r => r.locks
  | .updateRow r => .service r.serviceId :: r.locks
  | .deleteLoads r => [.service r.serviceId]
  | .savePrevious .. | .saveOthers .. | .saveUpsert .. | .removeSelect .. | .removeUses ..
  | .removeDelete .. => [.advisory]
  | .loadInsert l | .loadRead l _ => [.service l.serviceId]
  | .commit effect => effect.locks
  | _ => []

def Stage.ended : Stage → Bool
  | .returned _ | .raised _ => true
  | _ => false

structure State where
  db : Db := {}
  calls : List Stage := []

def State.held (s : State) (lock : Lock) : Bool := s.calls.any fun stage => lock ∈ stage.locks

def registry (create : Bool) (r : ServiceRecord) : Stage :=
  if r.bound = [] then .selectRow create r else .bindLock create r

variable (x : Library)

def Operation.stage : Operation → Stage
  | .create r => registry true r
  | .update r => registry false r
  | .delete id => .deleteRow id
  | .saveProfile payload id =>
    if x.allowed payload.baseUrl then .saveLock payload (id.filter (· ≠ ""))
    else .raised ⟨422, "The profile endpoint is outside the backend outbound allowlist."⟩
  | .removeProfile id revision => .removeLock id revision
  | .saveLoad l => .loadSelect l
  | .removeLoad key => .loadDelete key

def missingProfile : Stage := .raised ⟨404, "Observability profile not found."⟩

def missingService (id : String) : Stage := .raised ⟨404, "Service '" ++ id ++ "' was not found."⟩

def duplicate (id : String) : Stage :=
  .raised ⟨409, "Service '" ++ id ++ "' is already registered."⟩

def ofExcept {α : Type} (e : Except HTTPException α) (f : α → Stage) : Stage :=
  match e with
  | .ok a => f a
  | .error error => .raised error

/-- The statement is executed; `none` while it has to wait for a lock. -/
def await (s : State) (uuid : String) (moment : Nat) : Stage → Option Stage
  | .bindLock create r =>
    if s.held .advisory then none else some (.bindProfile create r r.bound)
  | .bindProfile create r [] => some (.selectRow create r)
  | .bindProfile create r ((provider, id) :: todo) =>
    match s.db.profile id with
    | none => some (.raised ⟨422, "The selected observability profile no longer exists."⟩)
    | some p =>
      if checkBinding p r.environment provider then
        some (.bindProfile create (r.effective provider p) todo)
      else some (.raised
        ⟨422, "The observability profile must match the service provider and environment."⟩)
  | .selectRow create r =>
    if s.held (.service r.serviceId) then none
    else match s.db.service r.serviceId with
      | none => some (if create then .insertRow r else missingService r.serviceId)
      | some row =>
        if row.deleted = create then some (.updateRow r)
        else some (if create then duplicate r.serviceId else missingService r.serviceId)
  | .insertRow r =>
    if s.held (.service r.serviceId) then none
    else if (s.db.service r.serviceId).isSome then some (duplicate r.serviceId)
    else some (.commit (.service r))
  | .updateRow r => some (.commit (.service r))
  | .deleteRow id =>
    if s.held (.service id) then none
    else match s.db.service id with
      | none => some (missingService id)
      | some row => some (if row.deleted then missingService id else .deleteLoads row.record)
  | .deleteLoads r =>
    some (.commit
      (.delete r ((s.db.loads.filter (Load.serviceId · = r.serviceId)).map Load.key)))
  | .saveLock payload id => if s.held .advisory then none else some (.savePrevious payload id)
  | .savePrevious payload none => some (.saveOthers payload none none)
  | .savePrevious payload (some id) =>
    match s.db.profile id with
    | none => some missingProfile
    | some p => some (ofExcept (payload.checkPrevious p)
        fun _ => .saveOthers payload (some id) (some p))
  | .saveOthers payload id previous =>
    some (ofExcept (saved x payload id previous s.db.profiles uuid moment)
      fun p => .saveUpsert payload id p)
  | .saveUpsert payload id p => some (.commit (.profile payload id p))
  | .removeLock id revision => if s.held .advisory then none else some (.removeSelect id revision)
  | .removeSelect id revision =>
    match s.db.profile id with
    | none => some missingProfile
    | some p =>
      if revision = p.revision then some (.removeUses id revision)
      else some (.raised ⟨409, "This profile changed. Reload it before deleting."⟩)
  | .removeUses id revision =>
    if s.db.services.any fun row => !row.deleted &&
        [Provider.loki, .prometheus, .tempo].any fun provider =>
          (row.record.config provider).bind Config.profileId = some id then
      some (.raised
        ⟨409, "This profile is used by registered services. Detach those services first."⟩)
    else some (.removeDelete id revision)
  | .removeDelete id revision => some (.commit (.removeProfile id revision))
  | .loadSelect l =>
    if s.held (.service l.serviceId) then none
    else if (s.db.service l.serviceId).any fun row =>
        !row.deleted && row.record.environment = l.environment && !row.record.disabled then
      some (.loadInsert l)
    else some (.raised
      ⟨409, "The service was removed, disabled or changed environment. Preview again."⟩)
  | .loadInsert l => some (.loadRead l (s.db.load l.key).isNone)
  | .loadRead l true => some (.commit (.load l))
  | .loadRead l false =>
    if (s.db.load l.key).map Load.profile = some l.profile then some (.commit (.keepLoad l))
    else some (.raised ⟨409, "This operation is already imported. Remove its imported profile " ++
      "before replacing it."⟩)
  | .loadDelete key => some (.commit (.removeLoad key))
  | .commit _ | .returned _ | .raised _ => none

inductive Step where
  | call (operation : Operation)
  /-- `uuid4` and the moment of an encryption, if the statement is followed by them. -/
  | await (n : Nat) (uuid : String) (moment : Nat)
  | commit (n : Nat)
  | fail (n : Nat) (error : HTTPException)

def next (s : State) : Step → Option State
  | .call operation => some { s with calls := s.calls ++ [operation.stage x] }
  | .await n uuid moment =>
    s.calls[n]?.bind fun stage =>
      (await x s uuid moment stage).map fun stage' => { s with calls := s.calls.set n stage' }
  | .commit n =>
    s.calls[n]?.bind fun
      | .commit effect =>
        some { db := s.db.apply effect, calls := s.calls.set n (.returned effect) }
      | _ => none
  | .fail n error =>
    (s.calls[n]?.filter (!·.ended)).map fun _ => { s with calls := s.calls.set n (.raised error) }

def machine : Machine State Step := ⟨next x⟩

/-- What `uuid4` draws is no profile's id. -/
def FreshIds (s : State) : Step → Prop
  | .await _ uuid _ => s.db.profile uuid = none
  | _ => True

end Relayna.Studio.ControlPlane
