import Mathlib.Data.List.Dedup
import Mathlib.Data.List.Sort
import Mathlib.Data.Prod.Lex
import Mathlib.Data.String.Basic
import Relayna.Contracts.Transport
import Relayna.Foundation.Keyed
import Relayna.Studio.Recovery

/-!
# Incidents

A scan reads the failed tasks of the services. Failures of one service with the same dimensions
have one natural incident, whose id is a hash of the dimensions. Two tables hold what was corrected
by hand: an incident may be merged into another, and a single failure may be given to an incident
that was split off.

The transactions of `_IncidentStore` take one advisory lock, so each is one step here; one that
raises leaves the tables as they are. Texts hold no NUL and no lone surrogate, which PostgreSQL
refuses. `sub` of a pattern, `json.dumps`, the hash and `datetime.fromisoformat` are parameters. The
history and the audit log are only written.
-/
namespace Relayna.Studio.Incidents

open Python Contracts Recovery

structure Builtins where
  text : Text
  /-- `_UUID.sub("<id>", s)`, `_HEX.sub("<id>", s)` and `_NUMBER.sub("<number>", s)`. -/
  subUuid : String → String
  subHex : String → String
  subNumber : String → String
  /-- `_timestamp`, in microseconds since 1970 UTC. -/
  timestamp : String → Option Int

/-! ## Scans -/

/-- The evidence that `read` keeps of a failed task. -/
structure Evidence where
  failureId : String
  serviceId : String
  environment : String
  taskId : Option String := none
  queueName : Option String := none
  sourceQueueName : Option String := none
  stage : Option String := none
  errorType : Option String := none
  errorMessage : Option String := none
  failedAt : Option String := none
  deriving DecidableEq, Repr

/-- A registered service; the registry has one record for each id. -/
structure Service where
  serviceId : String
  environment : String
  disabled : Bool := false
  deriving DecidableEq, Repr

inductive CoverageStatus
  | complete | truncated | unavailable
  deriving DecidableEq, Repr

structure Coverage where
  serviceId : String
  environment : String
  status : CoverageStatus
  observedFailures : Nat
  pages : Nat
  detail : Option String

/-- An answer of `list_failed_tasks`: a payload, or the text of an error that `read` catches. -/
abbrev Answer := Except String (Fields Value)

/-- `item.get(key)` where the item is refused unless it is a text or `None`. -/
def textField (item : Fields Value) (key : String) : Except String (Option String) :=
  match item.lookup key with
  | some (.str s) => .ok (some s)
  | some .none | none => .ok none
  | some _ => .error "Failure feed returned malformed evidence fields."

def Service.evidence (service : Service) : Value → Except String Evidence
  | .dict item =>
    match item.lookup "failure_id" with
    | some (.str failureId) =>
      if failureId = "" then .error "Failure feed returned a record without a failure ID."
      else do
        let taskId ← textField item "task_id"
        let queueName ← textField item "queue_name"
        let sourceQueueName ← textField item "source_queue_name"
        let stage ← textField item "stage"
        let errorType ← textField item "error_type"
        let errorMessage ← textField item "error_message"
        let failedAt ← textField item "failed_at"
        return {
          failureId, serviceId := service.serviceId, environment := service.environment, taskId,
          queueName, sourceQueueName, stage, errorType, errorMessage, failedAt }
    | _ => .error "Failure feed returned a record without a failure ID."
  | _ => .error "Failure feed returned a record without a failure ID."

/-- The loop over a page. What was kept before an item is refused stays kept. -/
def Service.keep (service : Service) (items : Fields Evidence) :
    List Value → Fields Evidence × Option String
  | [] => (items, none)
  | item :: page =>
    match service.evidence item with
    | .ok e => Service.keep service (items.set e.failureId e) page
    | .error detail => (items, some detail)

/-- What a page leads to: the items kept, and the next cursor, the end or an error. -/
inductive Turn
  | next (cursor : String)
  | complete
  | unavailable (detail : String)

def Service.turn (service : Service) (items : Fields Evidence) (cursors : List String)
    (payload : Fields Value) : Fields Evidence × Bool × Turn :=
  match payload.lookup "items" with
  | some (.list page) =>
    if (payload.lookup "errors").any Value.truthy then
      (items, false, .unavailable "Failure feed returned incomplete or malformed evidence.")
    else
      match service.keep items page with
      | (items, some detail) => (items, true, .unavailable detail)
      | (items, none) =>
        match payload.lookup "next_cursor" with
        | none | some .none => (items, true, .complete)
        | some (.str following) =>
          if following = "" then (items, true, .complete)
          else if following ∈ cursors then
            (items, true, .unavailable "Failure feed pagination did not advance.")
          else (items, true, .next following)
        | some _ => (items, true, .unavailable "Failure feed pagination did not advance.")
  | _ => (items, false, .unavailable "Failure feed returned incomplete or malformed evidence.")

/-- `read` with the pages that are left; `answer n` is the answer to the request for page `n`. -/
def Service.readPages (service : Service) (pageBudget : Nat) (answer : Nat → Answer) :
    Nat → Nat → List String → Fields Evidence →
      Fields Evidence × CoverageStatus × Option String × Nat
  | 0, pages, _, items => (items, .truncated, some ("Scan budget reached (" ++
      toString pageBudget ++ " pages of up to 50 failures)."), pages)
  | left + 1, pages, cursors, items =>
    match answer pages with
    | .error detail => (items, .unavailable,
        some (if detail = "" then "Failure scan timed out." else detail), pages)
    | .ok payload =>
      match service.turn items cursors payload with
      | (items, counted, .unavailable detail) =>
        (items, .unavailable, some detail, if counted then pages + 1 else pages)
      | (items, _, .complete) => (items, .complete, none, pages + 1)
      | (items, _, .next cursor) =>
        Service.readPages service pageBudget answer left (pages + 1) (cursor :: cursors) items

def Service.read (service : Service) (pageBudget : Nat) (answer : Nat → Answer) :
    List Evidence × Coverage :=
  let (items, status, detail, pages) := service.readPages pageBudget answer pageBudget 0 [] []
  (items.map Prod.snd,
    { serviceId := service.serviceId, environment := service.environment, status := status,
      observedFailures := items.length, pages := pages, detail := detail })

/-- `not wanted or value == wanted`. -/
def allows (wanted : Option String) (value : String) : Bool :=
  wanted.all fun w => w = "" || value = w

structure Scan where
  evidence : List Evidence
  coverage : List Coverage
  complete : Bool
  observedFailures : Nat
  scannedAt : Int

def scan (services : List Service) (pageBudget : Nat) (answer : String → Nat → Answer)
    (environment serviceId : Option String) (now : Int) : Scan :=
  let results := (services.filter fun s =>
      !s.disabled && allows environment s.environment && allows serviceId s.serviceId).map fun s =>
    s.read pageBudget (answer s.serviceId)
  let evidence := results.flatMap Prod.fst
  let coverage := results.map Prod.snd
  { evidence := evidence
    coverage := coverage
    complete := coverage.all (·.status = .complete)
    observedFailures := evidence.length
    scannedAt := now }

/-! ## Groups -/

/-- The environment and the service. -/
abbrev Scope := String × String

def Evidence.scope (e : Evidence) : Scope := (e.environment, e.serviceId)

/-- `(environment, service_id, failure_id)`. -/
def Evidence.key (e : Evidence) : Scope × String := (e.scope, e.failureId)

structure Dimensions where
  signatureVersion : String := "1"
  environment : String
  serviceId : String
  queueName : String
  stage : String
  errorType : String
  signature : String
  deriving DecidableEq, Repr

def Dimensions.scope (d : Dimensions) : Scope := (d.environment, d.serviceId)

/-- `str(value or default)` of a text. -/
def textOr (v : Option String) (default : String) : String := (v.filter (· ≠ "")).getD default

/-- `str.split()`. -/
def splitWords (s : String) : List String :=
  ((s.toList.splitOnP isSpace).filter (· ≠ [])).map String.ofList

namespace Builtins

variable (c : Builtins)

/-- `_dimensions`. -/
def dimensions (e : Evidence) : Dimensions :=
  let message := strip (e.errorMessage.getD "")
  let signature := " ".intercalate (splitWords (c.subNumber (c.subHex (c.subUuid message))))
  { environment := e.environment
    serviceId := e.serviceId
    queueName := textOr e.queueName (textOr e.sourceQueueName "unknown")
    stage := textOr e.stage "unknown"
    errorType := textOr e.errorType "unknown"
    signature :=
      if signature = "" then "Missing error message (" ++ e.failureId ++ ")" else signature }

/-- `_group_id`. -/
def groupId (d : Dimensions) : String :=
  c.text.sha256 (c.text.dumps (.dict [("signature_version", .str d.signatureVersion),
    ("environment", .str d.environment), ("service_id", .str d.serviceId),
    ("queue_name", .str d.queueName), ("stage", .str d.stage), ("error_type", .str d.errorType),
    ("signature", .str d.signature)]))

def naturalId (e : Evidence) : String := c.groupId (c.dimensions e)

end Builtins

/-! ## The tables -/

inductive IncidentStatus
  | open_ | acknowledged | resolved
  deriving DecidableEq, Repr

/-- A row of `studio_incidents`. -/
structure Incident where
  incidentId : String
  serviceId : String
  environment : String
  dimensions : Dimensions
  status : IncidentStatus := .open_
  owner : Option String := none
  revision : Nat := 0
  mergedInto : Option String := none
  deriving DecidableEq, Repr

def Incident.scope (i : Incident) : Scope := (i.environment, i.serviceId)

/-- The row is merged into another one. -/
def Incident.merged (i : Incident) : Bool := (i.mergedInto.filter (· ≠ "")).isSome

/-- A row of `studio_incident_overrides`. -/
structure Override where
  scope : Scope
  failureId : String
  incidentId : String
  deriving DecidableEq, Repr

def Override.key (o : Override) : Scope × String := (o.scope, o.failureId)

structure Tables where
  incidents : List Incident := []
  overrides : List Override := []

abbrev find (id : String) (states : List Incident) : Option Incident :=
  Keyed.get? Incident.incidentId id states

/-- `states.get(incident_id, {}).get("merged_into")`, if it is true. -/
def target (states : List Incident) (id : String) : Option String :=
  ((find id states).bind Incident.mergedInto).filter (· ≠ "")

/-- The number of incidents that a walk has not visited. -/
def unvisited (states : List Incident) (visited : List String) : Nat :=
  (states.filter (·.incidentId ∉ visited)).length

theorem unvisited_lt {states : List Incident} {id next : String} {visited : List String}
    (points : target states id = some next) (new : id ∉ visited) :
    unvisited states (id :: visited) < unvisited states visited := by
  obtain ⟨merged, -⟩ := Option.filter_eq_some_iff.mp points
  obtain ⟨i, found, -⟩ := Option.bind_eq_some_iff.mp merged
  have shorter : (states.filter (·.incidentId ∉ id :: visited)) =
      (states.filter (·.incidentId ∉ visited)).filter (·.incidentId ≠ id) := by
    rw [List.filter_filter]
    refine List.filter_congr fun j _ => ?_
    simp
  rw [unvisited, unvisited, shorter, List.length_filter_lt_length_iff_exists]
  refine ⟨i, List.mem_filter.mpr ⟨Keyed.mem_of_get? found, ?_⟩, ?_⟩
  · simpa [Keyed.key_of_get? found] using new
  · simp [Keyed.key_of_get? found]

/-- `_resolve` with the set of ids that were visited. -/
def resolve (states : List Incident) (visited : List String) (id : String) :
    Except String String :=
  match points : target states id with
  | none => .ok id
  | some next =>
    if new : id ∈ visited then .error "Invalid incident merge cycle."
    else
      have := unvisited_lt points new
      resolve states (id :: visited) next
  termination_by unvisited states visited

/-! ## The transactions -/

/-- What a transaction raises. -/
inductive Failure
  | http (e : HTTPException)
  | integrityError
  | runtimeError (detail : String)
  deriving DecidableEq, Repr

/-- The changes of `_Change` that are set. -/
structure Changes where
  status : Option IncidentStatus := none
  owner : Option (Option String) := none

namespace Tables

variable (t : Tables)

def ids : List String := t.incidents.map Incident.incidentId

/-- `_locked`. -/
def locked (id : String) (revision : Nat) : Except Failure Incident :=
  match find id t.incidents with
  | none => .error (.http ⟨404, "Incident not found."⟩)
  | some row =>
    if row.revision ≠ revision ∨ row.merged = true then
      .error (.http ⟨409, "Incident changed. Refresh before applying this action."⟩)
    else .ok row

def amend (id : String) (g : Incident → Incident) : Tables :=
  { t with incidents := Keyed.amend Incident.incidentId id g t.incidents }

/-- `insert(_incidents)`. -/
def insert (row : Incident) : Except Failure Tables :=
  if row.incidentId ∈ t.ids then .error .integrityError
  else .ok { t with incidents := t.incidents ++ [row] }

/-- `insert ... on_conflict_do_nothing`. -/
def discover (key : String) (dims : Dimensions) : Tables :=
  if key ∈ t.ids then t
  else { t with incidents := t.incidents ++
      [{ incidentId := key, serviceId := dims.serviceId, environment := dims.environment,
         dimensions := dims }] }

/-- `insert ... on_conflict_do_update`. -/
def override (row : Override) : Tables :=
  if row.key ∈ t.overrides.map Override.key then
    { t with
      overrides := Keyed.amend Override.key row.key
        (fun old => { old with incidentId := row.incidentId }) t.overrides }
  else { t with overrides := t.overrides ++ [row] }

/-- What `snapshot` writes. -/
def discoverAll (discoveries : Fields Dimensions) : Tables :=
  (discoveries.insertionSort fun a b => a.1 ≤ b.1).foldl (fun t d => t.discover d.1 d.2) t

/-- What `snapshot` reads. -/
def within (environment serviceId : Option String) : Tables where
  incidents := t.incidents.filter fun i =>
    allows environment i.environment && allows serviceId i.serviceId
  overrides := t.overrides.filter fun o =>
    allows environment o.scope.1 && allows serviceId o.scope.2

def change (id : String) (revision : Nat) (changes : Changes) (note : String) :
    Except Failure Tables :=
  (t.locked id revision).bind fun _ =>
    if changes.status = none ∧ changes.owner = none ∧ strip note = "" then
      .error (.http ⟨422, "Change an owner or status, or supply a note."⟩)
    else .ok (t.amend id fun row =>
      { row with
        status := changes.status.getD row.status
        owner := changes.owner.getD row.owner
        revision := revision + 1 })

def merge (sourceId : String) (revision : Nat) (targetId : String) (targetRevision : Nat) :
    Except Failure Tables :=
  if sourceId = targetId then
    .error (.http ⟨422, "Choose a different incident to merge into."⟩)
  else
    (t.locked sourceId revision).bind fun source =>
      (t.locked targetId targetRevision).bind fun target =>
        if source.scope ≠ target.scope then
          .error (.http ⟨422, "Merge requires the same environment and service."⟩)
        else .ok ((t.amend sourceId fun row =>
            { row with mergedInto := some targetId, revision := revision + 1 }).amend targetId
              fun row => { row with revision := targetRevision + 1 })

/-- The overrides of a scope, `{failure_id: incident_id}`. -/
def assignment (scope : Scope) (failureId : String) : Option String :=
  (Keyed.get? Override.key (scope, failureId) t.overrides).map Override.incidentId

/-- The failures that `split` counts as members of the incident. -/
def members (source : Incident) (observed : Fields String) : Except String (List String) :=
  (observed.mapM fun entry =>
    (resolve (t.incidents.filter fun i => i.scope = source.scope) []
      ((t.assignment source.scope entry.1).getD entry.2)).map fun id => (entry.1, id)).map
    fun resolved => (resolved.filter (·.2 = source.incidentId)).map Prod.fst

def split (id : String) (revision : Nat) (failureIds : List String) (observed : Fields String)
    (newId : String) : Except Failure Tables :=
  (t.locked id revision).bind fun source =>
    match t.members source observed with
    | .error detail => .error (.runtimeError detail)
    | .ok members =>
      if failureIds = [] ∨ ¬(failureIds ⊆ members ∧ ¬members ⊆ failureIds) then
        .error (.http ⟨409,
          "Select a proper subset of the currently observed failures; refresh and try again."⟩)
      else
        (t.insert
          { incidentId := newId
            serviceId := source.serviceId
            environment := source.environment
            dimensions := source.dimensions }).map fun t =>
          ((failureIds.dedup.insertionSort (· ≤ ·)).foldl
            (fun t f => t.override ⟨source.scope, f, newId⟩) t).amend id
              fun row => { row with revision := revision + 1 }

end Tables

/-! ## The inbox -/

inductive Grouping
  | manual | automatic
  deriving DecidableEq, Repr

structure Built where
  scan : Scan
  states : List (Incident × Grouping)
  groups : Fields (List Evidence)

def Built.group (b : Built) (id : String) : List Evidence := (b.groups.lookup id).getD []

namespace Builtins

variable (c : Builtins)

/-- The dictionary `discoveries` of `build`. -/
def discoveries (evidence : List Evidence) : Fields Dimensions :=
  evidence.foldl (fun d e => d.set (c.naturalId e) (c.dimensions e)) []

/-- `natural_ids[key]`, of the last item with the key. -/
def naturalIdOf (evidence : List Evidence) (key : Scope × String) : Option String :=
  (Keyed.get? Evidence.key key evidence.reverse).map c.naturalId

/-- `overrides.get(key, natural_ids[key])`; `build` looks up the keys of its own items. -/
def assigned (evidence : List Evidence) (overrides : List Override) (e : Evidence) : String :=
  ((Keyed.get? Override.key e.key overrides).map Override.incidentId).getD
    ((c.naturalIdOf evidence e.key).getD "")

/-- The key `(_timestamp(failed_at) or datetime.min, failure_id)`. -/
def recency (e : Evidence) : Int ×ₗ String :=
  toLex ((e.failedAt.bind c.timestamp).getD (-62135596800000000), e.failureId)

/-- `items.sort(key=..., reverse=True)`. -/
def newestFirst (items : List Evidence) : List Evidence :=
  items.insertionSort fun a b => c.recency b ≤ c.recency a

/-- `build`, with the tables that `snapshot` commits. -/
def build (t : Tables) (s : Scan) (environment serviceId : Option String) :
    Tables × Except String Built :=
  let t := t.discoverAll (c.discoveries s.evidence)
  let snapshot := t.within environment serviceId
  let corrected := snapshot.incidents.filter fun i =>
    i.merged || i.incidentId ≠ c.groupId i.dimensions
  (t, do
    let manualTargets ← corrected.mapM fun i => resolve snapshot.incidents [] i.incidentId
    let groups ← s.evidence.foldlM
      (fun (groups : Fields (List Evidence)) e =>
        (resolve snapshot.incidents [] (c.assigned s.evidence snapshot.overrides e)).map fun id =>
          groups.set id (((groups.lookup id).getD []) ++ [e])) []
    return {
      scan := s
      states := snapshot.incidents.map fun i =>
        (i, if i.incidentId ∈ manualTargets then .manual else .automatic)
      groups := groups.map fun group => (group.1, c.newestFirst group.2) })

end Builtins

/-- The failure counts of the incidents that `list_incidents` lists. -/
def Built.failureCounts (b : Built) : List (Incident × Nat) :=
  (b.states.filter fun state => !state.1.merged).map fun state =>
    (state.1, (b.group state.1.incidentId).length)

end Relayna.Studio.Incidents
