import Relayna.Foundation.Failing
import Relayna.Studio.Federation

/-!
# When a join is certain

A join is certain if every other service could be asked for the candidate and exactly one of them
holds it. `_find_task_matches` is called without errors for a candidate, so that a service which
could not be asked counts as one that does not hold it: `_resolve_join_candidate` never sees that a
scan was incomplete.
-/
namespace Relayna.Studio.Federation

open Python Contracts

/-! ## What a service tells -/

inductive Scan where
  | held
  | absent
  | failed
  deriving DecidableEq, Repr

def scanError (e : StudioFederationError) : Scan :=
  if e.code = "upstream_not_found" then .absent else .failed

def scanEvents (events : List Value) : Scan :=
  match events.getLast? with
  | none => .absent
  | some (.dict _) => .held
  | some _ => .failed

def scanHistory : Except Failure Payload → Scan
  | .ok history =>
    match history.lookup "events" with
    | some (.list events) => scanEvents events
    | _ => .absent
  | .error (.federation e) => scanError e
  | .error .other => .failed

/-- What the answers of a service tell about a task. -/
def Answers.scan (a : Answers) : Scan :=
  match a.status with
  | .ok _ => .held
  | .error (.federation e) =>
    if e.code = "unsupported_route" then scanHistory a.history else scanError e
  | .error .other => .failed

/-- How a lookup ends at a service that tells this. -/
def Scan.Ends : Scan → Except Failure (Option Payload) → Prop
  | .held, r => ∃ payload, r = .ok (some payload)
  | .absent, r => r = .ok none ∨ ∃ e, r = .error (.federation e) ∧ e.code = "upstream_not_found"
  | .failed, r =>
    r = .error .other ∨ ∃ e, r = .error (.federation e) ∧ e.code ≠ "upstream_not_found"

theorem ends_scanError (e : StudioFederationError) :
    (scanError e).Ends (.error (.federation e)) := by
  rw [scanError]
  split_ifs with code
  · exact Or.inr ⟨e, rfl, code⟩
  · exact Or.inr ⟨e, rfl, code⟩

section Lookup

variable {x : Text} {service : Service} {taskId : String}

theorem strip_of_normalizeString {v : Option Value} {text : String}
    (h : normalizeString x v = some text) : strip text = text ∧ text ≠ "" := by
  rw [normalizeString.eq_def] at h
  split at h
  · cases h
  · cases h
  · split_ifs at h with blank
    cases h
    exact ⟨Names.strip_strip _, blank⟩

theorem buildTaskPointer_ok (named : strip taskId ≠ "") :
    ∃ pointer, buildTaskPointer service.serviceId taskId = .ok pointer := by
  rw [buildTaskPointer, if_neg (not_or.mpr ⟨service.named, named⟩)]
  exact ⟨_, rfl⟩

theorem buildTaskRef_ok (named : strip taskId ≠ "") (correlationId : Option String)
    (parents children : List StudioTaskPointer) :
    ∃ ref, buildTaskRef service.serviceId taskId correlationId parents children = .ok ref := by
  rw [buildTaskRef, if_neg (not_or.mpr ⟨service.named, named⟩)]
  exact ⟨_, rfl⟩

theorem pointersForTaskIds_ok (taskIds : List String) :
    ∃ pointers, pointersForTaskIds x service.serviceId taskIds = .ok pointers := by
  refine Failing.mapM_total fun taskId mem => buildTaskPointer_ok ?_
  obtain ⟨value, -, normalized⟩ := List.mem_filterMap.mp (List.mem_eraseDups.mp mem)
  obtain ⟨stripped, nonempty⟩ := strip_of_normalizeString normalized
  rwa [stripped]

/-- The payload that stands for the status of a task can be normalized. -/
theorem normalizeStatusPayload_ok (named : strip taskId ≠ "") (payload : Payload) :
    ∃ normalized, normalizeStatusPayload x service payload (some taskId) = .ok normalized := by
  have task :
      strip (((payloadValue x service payload "task_id").or (some taskId)).getD "") ≠ "" := by
    cases found : payloadValue x service payload "task_id" with
    | none => exact named
    | some value =>
      have normalized : ∃ v, normalizeString x v = some value := by
        rw [payloadValue, Option.or_eq_some_iff] at found
        rcases found with own | ⟨-, aliased⟩
        · exact ⟨_, own⟩
        · obtain ⟨other, -, aliased⟩ := Option.bind_eq_some_iff.mp aliased
          exact ⟨_, aliased⟩
      obtain ⟨v, normalized⟩ := normalized
      obtain ⟨stripped, nonempty⟩ := strip_of_normalizeString normalized
      change strip value ≠ ""
      rwa [stripped]
  have pointers : ∃ pointers, pointersForTaskIds x service.serviceId
      (eventParentTaskIds x service (payload.lookup "event")) = .ok pointers :=
    pointersForTaskIds_ok _
  obtain ⟨pointers, hp⟩ := pointers
  have ref : ∃ ref, buildTaskRef service.serviceId
      (((payloadValue x service payload "task_id").or (some taskId)).getD "")
      (eventCorrelationId x service (payload.lookup "event")) pointers [] = .ok ref :=
    buildTaskRef_ok task _ _ _
  obtain ⟨ref, hr⟩ := ref
  rw [normalizeStatusPayload, hp]
  simp only [bind, Except.bind]
  rw [hr]
  exact ⟨_, rfl⟩

theorem ends_statusOfHistory (named : strip taskId ≠ "") {events : List Value}
    (nonempty : events.isEmpty = false) :
    (scanEvents events).Ends (some <$> statusOfHistory x service taskId events) := by
  rw [statusOfHistory, latestHistoryEvent, scanEvents]
  cases last : events.getLast? with
  | none =>
    rw [List.getLast?_eq_none_iff] at last
    rw [last] at nonempty
    cases nonempty
  | some v =>
    cases v with
    | dict event =>
      have normalized : ∃ payload, normalizeStatusPayload x service
          [("service_id", .str service.serviceId), ("task_id", .str taskId),
            ("event", .dict event)] (some taskId) = .ok payload := normalizeStatusPayload_ok named _
      obtain ⟨payload, ok⟩ := normalized
      refine ⟨payload, ?_⟩
      simp only [bind, Except.bind]
      rw [ok]
      rfl
    | _ => exact Or.inr ⟨_, rfl, by simp⟩

/-- A lookup ends as the answers of its service tell. -/
theorem ends_searchLatestStatus (named : strip taskId ≠ "") (answers : Answers) :
    answers.scan.Ends (searchLatestStatus x service taskId answers) := by
  rw [searchLatestStatus, Answers.scan]
  rcases answers.status with (e | -) | payload
  · dsimp only
    by_cases unsupported : e.code = "unsupported_route"
    · rw [if_pos unsupported, if_neg (not_not.mpr unsupported)]
      rcases answers.history with (e | -) | history
      · exact ends_scanError e
      · exact Or.inl rfl
      · simp only [scanHistory, bind, Except.bind]
        rcases history.lookup "events" with - | v
        · exact Or.inl rfl
        · cases v with
          | list events =>
            cases empty : events.isEmpty with
            | true =>
              rw [List.isEmpty_iff.mp empty]
              exact Or.inl rfl
            | false =>
              dsimp only
              rw [if_neg (by rw [empty]; decide)]
              exact ends_statusOfHistory named empty
          | _ => exact Or.inl rfl
    · rw [if_neg unsupported, if_pos unsupported]
      exact ends_scanError e
  · exact Or.inl rfl
  · exact ⟨payload, rfl⟩

theorem matchOf_ok (named : strip taskId ≠ "") (payload : Payload) :
    ∃ found, matchOf x taskId service payload = .ok found ∧ found.service = service ∧
      found.item.serviceId = service.serviceId := by
  have task : strip ((payloadTaskId x payload).getD taskId) ≠ "" := by
    cases found : payloadTaskId x payload with
    | none => exact named
    | some value =>
      obtain ⟨stripped, nonempty⟩ := strip_of_normalizeString found
      change strip value ≠ ""
      rwa [stripped]
  rw [matchOf]
  cases taskRefFromPayload payload with
  | some ref => exact ⟨_, rfl, rfl, rfl⟩
  | none =>
    have ref : ∃ ref, buildTaskRef service.serviceId ((payloadTaskId x payload).getD taskId)
        none [] [] = .ok ref := buildTaskRef_ok task none [] []
    obtain ⟨ref, hr⟩ := ref
    simp only [bind, Except.bind]
    rw [hr]
    exact ⟨_, rfl, rfl, rfl⟩

end Lookup

/-! ## A scan of all services -/

section Candidates

variable {x : Text} {taskId : String} {answers : Service → Answers}

/-- What a service adds to a scan without errors. -/
inductive Adds (answers : Service → Answers) (service : Service) :
    Option SearchTaskMatch × Option FederatedError → Prop where
  | held {found : SearchTaskMatch} (tells : (answers service).scan = .held)
      (same : found.service = service) (id : found.item.serviceId = service.serviceId) :
      Adds answers service (some found, none)
  | nothing (tells : (answers service).scan ≠ .held) : Adds answers service (none, none)

theorem searchService_adds (named : strip taskId ≠ "") {service : Service}
    {added : Option SearchTaskMatch × Option FederatedError}
    (h : searchService x taskId false answers service = .ok added) :
    Adds answers service added := by
  have ends : (answers service).scan.Ends (searchLatestStatus x service taskId (answers service)) :=
    ends_searchLatestStatus named (answers service)
  rw [searchService.eq_def] at h
  cases tells : (answers service).scan with
  | held =>
    rw [tells] at ends
    obtain ⟨payload, ok⟩ := ends
    have made : ∃ found, matchOf x taskId service payload = .ok found ∧ found.service = service ∧
        found.item.serviceId = service.serviceId := matchOf_ok named payload
    obtain ⟨found, made, same, id⟩ := made
    rw [ok] at h
    simp only [made, bind, Except.bind, pure, Except.pure] at h
    cases h
    exact .held tells same id
  | absent =>
    rw [tells] at ends
    obtain ok | ⟨e, raised, code⟩ := ends
    · rw [ok] at h
      cases h
      exact .nothing (by rw [tells]; decide)
    · rw [raised] at h
      dsimp only at h
      rw [if_pos code] at h
      cases h
      exact .nothing (by rw [tells]; decide)
  | failed =>
    rw [tells] at ends
    obtain raised | ⟨e, raised, code⟩ := ends
    · rw [raised] at h
      cases h
    · rw [raised] at h
      dsimp only at h
      rw [if_neg code] at h
      cases h
      exact .nothing (by rw [tells]; decide)

theorem searchService_ok (named : strip taskId ≠ "") {service : Service}
    (scanned : (answers service).scan ≠ .failed) :
    ∃ added, searchService x taskId false answers service = .ok added := by
  have ends : (answers service).scan.Ends (searchLatestStatus x service taskId (answers service)) :=
    ends_searchLatestStatus named (answers service)
  rw [searchService.eq_def]
  cases tells : (answers service).scan with
  | held =>
    rw [tells] at ends
    obtain ⟨payload, ok⟩ := ends
    have made : ∃ found, matchOf x taskId service payload = .ok found ∧ found.service = service ∧
        found.item.serviceId = service.serviceId := matchOf_ok named payload
    obtain ⟨found, made, -, -⟩ := made
    rw [ok]
    simp only [made, bind, Except.bind]
    exact ⟨_, rfl⟩
  | absent =>
    rw [tells] at ends
    obtain ok | ⟨e, raised, code⟩ := ends
    · rw [ok]
      exact ⟨_, rfl⟩
    · rw [raised]
      dsimp only
      rw [if_pos code]
      exact ⟨_, rfl⟩
  | failed => exact absurd tells scanned

/-- The matches of a scan without errors are those of the services that hold the task. -/
theorem matches_of_adds {services : List Service}
    {added : List (Option SearchTaskMatch × Option FederatedError)}
    (h : List.Forall₂ (Adds answers) services added) :
    added.filterMap Prod.snd = [] ∧
      (added.filterMap Prod.fst).map (·.service) =
        services.filter (fun service => (answers service).scan = .held) ∧
      ∀ found ∈ added.filterMap Prod.fst, found.item.serviceId = found.service.serviceId := by
  induction h with
  | nil => exact ⟨rfl, rfl, fun found mem => absurd mem List.not_mem_nil⟩
  | @cons service entry services added adds _ ih =>
    obtain ⟨errors, held, ids⟩ := ih
    cases adds with
    | @held first tells same id =>
      refine ⟨errors, ?_, ?_⟩
      · rw [List.filter_cons_of_pos (by simpa using tells), ← held]
        simp [same]
      · intro found mem
        have cases_ : found ∈ first :: added.filterMap Prod.fst := mem
        rcases List.mem_cons.mp cases_ with rfl | mem
        · rw [id, same]
        · exact ids found mem
    | nothing tells =>
      refine ⟨errors, ?_, ids⟩
      rw [List.filter_cons_of_neg (by simpa using tells), ← held]
      rfl

theorem findTaskMatches_spec (named : strip taskId ≠ "") {services : List Service}
    {found : List SearchTaskMatch} {errors : List FederatedError}
    (h : findTaskMatches x taskId false answers services = .ok (found, errors)) :
    errors = [] ∧
      found.map (·.service) = services.filter (fun s => (answers s).scan = .held) ∧
      ∀ m ∈ found, m.item.serviceId = m.service.serviceId := by
  rw [findTaskMatches] at h
  obtain ⟨added, scanned, h⟩ := Failing.bind_ok.mp h
  cases h
  refine matches_of_adds ((Failing.mapM_ok scanned).imp fun service entry ok => ?_)
  exact searchService_adds (by rwa [Names.strip_strip]) ok

theorem findTaskMatches_ok (named : strip taskId ≠ "") {services : List Service}
    (scanned : ∀ s ∈ services, (answers s).scan ≠ .failed) :
    ∃ result, findTaskMatches x taskId false answers services = .ok result := by
  have each : ∃ added, services.mapM (searchService x (strip taskId) false answers) = .ok added :=
    Failing.mapM_total fun s mem => searchService_ok (by rwa [Names.strip_strip]) (scanned s mem)
  obtain ⟨added, ok⟩ := each
  rw [findTaskMatches, ok]
  exact ⟨_, rfl⟩

/-! ## A candidate is resolved -/

variable {services : List Service} {candidate : JoinCandidate}

/-- The other services that hold a candidate. -/
def holders (services : List Service) (candidate : JoinCandidate)
    (answers : Service → Answers) : List Service :=
  services.filter fun s => s.serviceId ≠ candidate.source.serviceId ∧ (answers s).scan = .held

/-- Every other service was scanned, and this one alone holds the candidate. -/
def Links (services : List Service) (candidate : JoinCandidate) (answers : Service → Answers)
    (service : Service) : Prop :=
  (∀ s ∈ services, s.serviceId ≠ candidate.source.serviceId → (answers s).scan ≠ .failed) ∧
    holders services candidate answers = [service]

/-- A candidate is resolved as it should be: a match is certain, a service that could not be scanned
is told of, and a candidate is ambiguous only if several services hold it. -/
def Certain (services : List Service) (candidate : JoinCandidate) (answers : Service → Answers)
    (result : Except Failure (Option SearchTaskMatch × Option StudioJoinWarning)) : Prop :=
  ∃ found warning, result = .ok (found, warning) ∧
    (∀ m, found = some m → Links services candidate answers m.service) ∧
    ((∃ s ∈ services, (answers s).scan = .failed) →
      ∃ w, warning = some w ∧ w.code = "incomplete_join_candidate_scan") ∧
    ∀ w, warning = some w → w.code = "ambiguous_join_candidate" →
      1 < (holders services candidate answers).length

theorem map_cross {found : List SearchTaskMatch}
    (held : found.map (·.service) = services.filter fun s => (answers s).scan = .held)
    (ids : ∀ m ∈ found, m.item.serviceId = m.service.serviceId) :
    (found.filter fun m => m.item.serviceId ≠ candidate.source.serviceId ∧
        (m.item.serviceId, m.item.taskId) ≠
          (candidate.source.serviceId, candidate.source.taskId)).map (·.service) =
      holders services candidate answers := by
  have same : ∀ m ∈ found, decide (m.item.serviceId ≠ candidate.source.serviceId ∧
      (m.item.serviceId, m.item.taskId) ≠
        (candidate.source.serviceId, candidate.source.taskId)) =
      decide (m.service.serviceId ≠ candidate.source.serviceId) := by
    intro m mem
    rw [decide_eq_decide, ids m mem]
    exact and_iff_left_of_imp fun other pair => other (Prod.ext_iff.mp pair).1
  calc _ = (found.filter fun m => m.service.serviceId ≠ candidate.source.serviceId).map
          (·.service) := by rw [List.filter_congr same]
    _ = (found.map (·.service)).filter fun s => s.serviceId ≠ candidate.source.serviceId := by
      rw [List.filter_map]
      rfl
    _ = holders services candidate answers := by
      rw [held, List.filter_filter, holders]
      simp only [Bool.decide_and]

/-- What is returned for a candidate: the only holder, or a warning if there are several. Nothing
tells of a service that was not scanned. -/
theorem resolveJoinCandidate_spec (valued : strip candidate.matchedValue ≠ "")
    {found : Option SearchTaskMatch} {warning : Option StudioJoinWarning}
    (h : resolveJoinCandidate x services candidate answers = .ok (found, warning)) :
    (∀ m, found = some m → holders services candidate answers = [m.service]) ∧
      ∀ w, warning = some w →
        w = ambiguousWarning candidate.joinKind candidate.matchedValue ∧
          1 < (holders services candidate answers).length := by
  rw [resolveJoinCandidate] at h
  obtain ⟨⟨matched, errors⟩, scanned, h⟩ := Failing.bind_ok.mp h
  obtain ⟨rfl, held, ids⟩ := findTaskMatches_spec valued scanned
  have cross : _ = holders services candidate answers := map_cross held ids
  simp only [List.isEmpty_nil, Bool.not_true, Bool.false_eq_true, if_false] at h
  generalize (matched.filter _) = others at cross h
  rw [← cross]
  split_ifs at h with several
  · cases h
    refine ⟨fun m some_ => (by cases some_), fun w same => ?_⟩
    cases same
    rw [List.length_map]
    exact ⟨rfl, several⟩
  · cases h
    refine ⟨fun m first => ?_, fun w same => by cases same⟩
    match others, several with
    | [m'], _ =>
      cases first
      rfl
    | _ :: _ :: _, several => exact absurd (by simp) several

theorem resolveJoinCandidate_ok (valued : strip candidate.matchedValue ≠ "")
    (scanned : ∀ s ∈ services, (answers s).scan ≠ .failed) :
    ∃ result, resolveJoinCandidate x services candidate answers = .ok result := by
  have all : ∃ result, findTaskMatches x candidate.matchedValue false answers services =
      .ok result := findTaskMatches_ok valued scanned
  obtain ⟨result, ok⟩ := all
  rw [resolveJoinCandidate, ok]
  simp only [bind, Except.bind]
  split_ifs <;> exact ⟨_, rfl⟩

/-- A candidate is resolved as it should be exactly if every service could be scanned. -/
theorem certain_iff (valued : strip candidate.matchedValue ≠ "") :
    Certain services candidate answers (resolveJoinCandidate x services candidate answers) ↔
      ∀ s ∈ services, (answers s).scan ≠ .failed := by
  constructor
  · rintro ⟨found, warning, ok, -, told, -⟩ s mem failed
    obtain ⟨w, some_, code⟩ := told ⟨s, mem, failed⟩
    obtain ⟨ambiguous, -⟩ := (resolveJoinCandidate_spec valued ok).2 w some_
    rw [ambiguous] at code
    exact absurd code (by simp [ambiguousWarning])
  · intro scanned
    have resolved : ∃ result, resolveJoinCandidate x services candidate answers = .ok result :=
      resolveJoinCandidate_ok valued scanned
    obtain ⟨⟨found, warning⟩, ok⟩ := resolved
    obtain ⟨single, several⟩ := resolveJoinCandidate_spec valued ok
    refine ⟨found, warning, ok, fun m some_ => ⟨fun s mem _ => scanned s mem, single m some_⟩,
      fun ⟨s, mem, failed⟩ => absurd failed (scanned s mem), fun w some_ _ => ?_⟩
    exact (several w some_).2

end Candidates

/-! ## The joins of a request -/

section Requests

variable {x : Text} {services : List Service} {scans : Nat → Service → Answers}

theorem collectJoinCandidates_spec {taskRef : StudioTaskRef} {graph : Option Payload}
    {join : JoinMode} {candidate : JoinCandidate}
    (h : candidate ∈ collectJoinCandidates x taskRef graph join) :
    candidate.source = taskRef ∧ strip candidate.matchedValue ≠ "" := by
  obtain ⟨⟨joinKind, value⟩, -, made⟩ := List.mem_filterMap.mp (List.mem_eraseDups.mp h)
  obtain ⟨matched, kept, rfl⟩ := Option.map_eq_some_iff.mp made
  obtain ⟨stripped, nonempty⟩ := strip_of_normalizeString (Option.filter_eq_some_iff.mp kept).1
  refine ⟨rfl, ?_⟩
  change strip matched ≠ ""
  rwa [stripped]

/-- A join rests on the `n`-th scan, in which the candidate was resolved to this match. If every
service could be scanned, the match is certain. -/
def RestsOn (x : Text) (services : List Service) (scans : Nat → Service → Answers) (n : Nat)
    (candidate : JoinCandidate) (found : SearchTaskMatch) : Prop :=
  (∃ warning,
    resolveJoinCandidate x services candidate (scans n) = .ok (some found, warning)) ∧
    ((∀ s ∈ services, (scans n s).scan ≠ .failed) →
      Links services candidate (scans n) found.service)

theorem restsOn {n : Nat} {candidate : JoinCandidate} {found : SearchTaskMatch}
    {warning : Option StudioJoinWarning} (valued : strip candidate.matchedValue ≠ "")
    (resolved : resolveJoinCandidate x services candidate (scans n) = .ok (some found, warning)) :
    RestsOn x services scans n candidate found :=
  ⟨⟨warning, resolved⟩, fun scanned =>
    ⟨fun s mem _ => scanned s mem, (resolveJoinCandidate_spec valued resolved).1 _ rfl⟩⟩

/-- The candidate that a joined task was found for. -/
def Joined.candidate (j : Joined) (source : StudioTaskRef) : JoinCandidate :=
  ⟨source, j.joinKind, j.matchedValue⟩

/-- What one candidate adds. -/
theorem mem_add {joins : Joins} {candidate : JoinCandidate} {found : Option SearchTaskMatch}
    {warning : Option StudioJoinWarning} {j : Joined}
    (h : j ∈ (joins.add candidate (found, warning)).joined) :
    j ∈ joins.joined ∨ found = some j.found ∧ j.candidate candidate.source = candidate := by
  cases found with
  | none => exact Or.inl h
  | some m =>
    rw [Joins.add] at h
    dsimp only at h
    split_ifs at h
    · exact Or.inl h
    · rcases List.mem_append.mp h with old | new
      · exact Or.inl old
      · rw [List.mem_singleton] at new
        subst new
        exact Or.inr ⟨rfl, rfl⟩

theorem mem_buildJoins {candidates : List JoinCandidate}
    (valued : ∀ candidate ∈ candidates, strip candidate.matchedValue ≠ "") {joins : Joins}
    (h : buildJoins x services scans candidates = .ok joins) {j : Joined}
    (mem : j ∈ joins.joined) :
    ∃ n, ∃ candidate ∈ candidates, j.candidate candidate.source = candidate ∧
      RestsOn x services scans n candidate j.found := by
  rw [buildJoins] at h
  obtain ⟨all, looped, h⟩ := Failing.bind_ok.mp h
  cases h
  -- Every task that is joined so far was found for one of the candidates that are done.
  have joined := Failing.foldlM_ok (I := fun done (joins : Joins) => ∀ j ∈ joins.joined,
    ∃ entry ∈ done, j.candidate entry.1.source = entry.1 ∧
      (strip entry.1.matchedValue ≠ "" → RestsOn x services scans entry.2 entry.1 j.found))
    (fun {done joins entry joins'} held ok j mem => by
      obtain ⟨⟨found, warning⟩, resolved, ok⟩ := Failing.bind_ok.mp ok
      cases ok
      rcases mem_add mem with old | ⟨rfl, same⟩
      · obtain ⟨earlier, inside, rests⟩ := held j old
        exact ⟨earlier, List.mem_append_left _ inside, rests⟩
      · exact ⟨entry, List.mem_append_right _ List.mem_cons_self, same,
          fun valued => restsOn valued resolved⟩)
    (fun j nothing => absurd nothing List.not_mem_nil) looped
  obtain ⟨entry, inside, same, rests⟩ := joined j mem
  have candidate := List.fst_mem_of_mem_zipIdx inside
  exact ⟨entry.2, entry.1, candidate, same, rests (valued _ candidate)⟩

theorem restsOn_detail {service : Service} {taskId : String} {join : JoinMode} {reads : Reads}
    {response : StudioTaskDetailResponse}
    (h : getTaskDetail x services service taskId join reads scans = .ok response)
    {j : StudioTaskJoin} (mem : j ∈ response.joinedRefs) :
    ∃ n found, j.taskRef = found.item.taskRef ∧
      RestsOn x (listQueryableServices services) scans n
        ⟨response.bundle.taskRef, j.joinKind, j.matchedValue⟩ found := by
  rw [getTaskDetail] at h
  obtain ⟨bundle, -, h⟩ := Failing.bind_ok.mp h
  split_ifs at h
  · cases h
    cases mem
  · obtain ⟨joins, joined, h⟩ := Failing.bind_ok.mp h
    cases h
    obtain ⟨made, inside, rfl⟩ := List.mem_map.mp mem
    obtain ⟨n, candidate, collected, same, rests⟩ := mem_buildJoins
      (fun candidate inside => (collectJoinCandidates_spec inside).2) joined inside
    rw [← same, (collectJoinCandidates_spec collected).1] at rests
    exact ⟨n, made.found, rfl, rests⟩

theorem serviceId_buildTaskDetailBundle {service : Service} {taskId : String} {reads : Reads}
    {bundle : TaskDetailBundle} (h : buildTaskDetailBundle x service taskId reads = .ok bundle) :
    bundle.taskRef.serviceId = strip service.serviceId := by
  rw [buildTaskDetailBundle] at h
  obtain ⟨latest, -, h⟩ := Failing.bind_ok.mp h
  obtain ⟨history, -, h⟩ := Failing.bind_ok.mp h
  obtain ⟨dlq, -, h⟩ := Failing.bind_ok.mp h
  obtain ⟨graph, -, h⟩ := Failing.bind_ok.mp h
  obtain ⟨status, -, h⟩ := Failing.bind_ok.mp h
  obtain ⟨taskRef, primary, h⟩ := Failing.bind_ok.mp h
  cases h
  rw [buildPrimaryTaskRef] at primary
  obtain ⟨related, -, primary⟩ := Failing.bind_ok.mp primary
  obtain ⟨aggregated, -, primary⟩ := Failing.bind_ok.mp primary
  rw [buildTaskRef] at primary
  split_ifs at primary
  cases primary
  rfl

theorem serviceId_findTaskMatches {taskId : String} {answers : Service → Answers}
    {includeErrors : Bool} {found : List SearchTaskMatch} {errors : List FederatedError}
    (h : findTaskMatches x taskId includeErrors answers services = .ok (found, errors))
    {m : SearchTaskMatch} (mem : m ∈ found) : m.service.serviceId = m.item.serviceId := by
  rw [findTaskMatches] at h
  obtain ⟨results, scanned, h⟩ := Failing.bind_ok.mp h
  cases h
  obtain ⟨entry, inside, first⟩ := List.mem_filterMap.mp mem
  obtain ⟨service, -, ok⟩ := Failing.exists_of_forall₂ (Failing.mapM_ok scanned) inside
  rw [searchService.eq_def] at ok
  split at ok
  · split_ifs at ok <;> cases ok <;> cases first
  · cases ok
  · cases ok
    cases first
  · obtain ⟨made, matched, ok⟩ := Failing.bind_ok.mp ok
    cases ok
    cases first
    rw [matchOf] at matched
    split at matched <;>
      obtain ⟨ref, -, matched⟩ := Failing.bind_ok.mp matched <;> cases matched <;> rfl

theorem restsOn_search {lower : String → String} {taskId : String} {join : JoinMode}
    {answers : Service → Answers} {reads : Service → Reads} {response : StudioTaskSearchResponse}
    (h : searchTasks x services lower taskId join answers reads scans = .ok response)
    {j : StudioJoinedTaskSearchItem} (mem : j ∈ response.joinedItems) :
    ∃ n found source, j.item = found.item ∧
      (∃ item ∈ response.items, source.serviceId = strip item.serviceId) ∧
      RestsOn x (listQueryableServices services) scans n
        ⟨source, j.joinKind, j.matchedValue⟩ found := by
  rw [searchTasks] at h
  obtain ⟨⟨exactMatches, errors⟩, matched, h⟩ := Failing.bind_ok.mp h
  dsimp only at h
  split_ifs at h
  · cases h
    cases List.mem_mergeSort.mp mem
  · obtain ⟨joins, joined, h⟩ := Failing.bind_ok.mp h
    cases h
    obtain ⟨made, inside, rfl⟩ := List.mem_map.mp (List.mem_mergeSort.mp mem)
    rw [buildSearchJoins] at joined
    obtain ⟨bundles, bundled, joined⟩ := Failing.bind_ok.mp joined
    obtain ⟨n, candidate, collected, same, rests⟩ := mem_buildJoins (fun candidate mem => by
      obtain ⟨bundle, -, collected⟩ := List.mem_flatMap.mp mem
      exact (collectJoinCandidates_spec collected).2) joined inside
    obtain ⟨bundle, taken, collected⟩ := List.mem_flatMap.mp collected
    obtain ⟨m, found, built⟩ := Failing.exists_of_forall₂ (Failing.mapM_ok bundled) taken
    rw [← same, (collectJoinCandidates_spec collected).1] at rests
    refine ⟨n, made.found, bundle.taskRef, rfl, ⟨m.item, ?_, ?_⟩, rests⟩
    · exact List.mem_mergeSort.mpr (List.mem_map_of_mem found)
    · rw [serviceId_buildTaskDetailBundle built, serviceId_findTaskMatches matched found]

end Requests

/-- A candidate is resolved as it should be exactly if every service could be scanned for it, and
what is joined in an answer is certain if every service could be scanned for its candidate. -/
theorem joins_certain_iff (x : Text) (services : List Service) :
    (∀ (candidate : JoinCandidate) (answers : Service → Answers),
      strip candidate.matchedValue ≠ "" →
        (Certain services candidate answers (resolveJoinCandidate x services candidate answers) ↔
          ∀ s ∈ services, (answers s).scan ≠ .failed)) ∧
    (∀ (service : Service) (taskId : String) (join : JoinMode) (reads : Reads)
        (scans : Nat → Service → Answers) (response : StudioTaskDetailResponse),
      getTaskDetail x services service taskId join reads scans = .ok response →
        ∀ j ∈ response.joinedRefs, ∃ n found, j.taskRef = found.item.taskRef ∧
          RestsOn x (listQueryableServices services) scans n
            ⟨response.bundle.taskRef, j.joinKind, j.matchedValue⟩ found) ∧
    (∀ (lower : String → String) (taskId : String) (join : JoinMode)
        (answers : Service → Answers) (reads : Service → Reads)
        (scans : Nat → Service → Answers) (response : StudioTaskSearchResponse),
      searchTasks x services lower taskId join answers reads scans = .ok response →
        ∀ j ∈ response.joinedItems, ∃ n found source, j.item = found.item ∧
          (∃ item ∈ response.items, source.serviceId = strip item.serviceId) ∧
          RestsOn x (listQueryableServices services) scans n
            ⟨source, j.joinKind, j.matchedValue⟩ found) :=
  ⟨fun _ _ => certain_iff, fun _ _ _ _ _ _ ok _ => restsOn_detail ok,
    fun _ _ _ _ _ _ _ ok _ => restsOn_search ok⟩

def sampleService (serviceId : String) (named : strip serviceId ≠ "") : Service where
  serviceId
  name := serviceId
  environment := "prod"
  disabled := false
  payloadAliases := none
  named

def sampleServices : List Service :=
  [sampleService "a" (by decide), sampleService "b" (by decide), sampleService "c" (by decide)]

def notFound (serviceId : String) : Failure :=
  .federation ⟨404, "not found", "upstream_not_found", some serviceId, some 404, false⟩

/-- One service holds the task, and the others answer with `c` and with what they do not hold. -/
def answersOf (c : Failure) (service : Service) : Answers where
  status :=
    if service.serviceId = "b" then .ok [("task_id", .str "t-9"), ("status", .str "completed")]
    else if service.serviceId = "c" then .error c
    else .error (notFound service.serviceId)
  history := .error .other

/-- A task with a correlation and nothing else. -/
def sampleReads : Reads where
  status := .ok [("task_id", .str "t-1"), ("task_ref", .dict [("service_id", .str "a"),
    ("task_id", .str "t-1"), ("correlation_id", .str "corr")])]
  history := .error (notFound "a")
  dlqMessages := .error (notFound "a")
  executionGraph := .error (notFound "a")

/-- The details of a task with another one joined to it, and a scan that the join is certain by. -/
theorem joins_certain_of_correlation :
    ∃ response, getTaskDetail plainText sampleServices (sampleService "a" (by decide)) "t-1" .all
        sampleReads (fun _ => answersOf (notFound "c")) = .ok response ∧
      response.joinedRefs.map (fun j =>
        (j.taskRef.serviceId, j.taskRef.taskId, j.joinKind, j.matchedValue)) =
        [("b", "t-9", .correlationId, "corr")] ∧
      response.joinWarnings = [] ∧
      ∀ j ∈ response.joinedRefs, ∃ found : SearchTaskMatch, j.taskRef = found.item.taskRef ∧
        Links (listQueryableServices sampleServices)
          ⟨response.bundle.taskRef, j.joinKind, j.matchedValue⟩ (answersOf (notFound "c"))
          found.service := by
  obtain ⟨response, answered, joined, warned⟩ : ∃ response, getTaskDetail plainText sampleServices
      (sampleService "a" (by decide)) "t-1" .all sampleReads (fun _ => answersOf (notFound "c")) =
        .ok response ∧ response.joinedRefs.map (fun j =>
          (j.taskRef.serviceId, j.taskRef.taskId, j.joinKind, j.matchedValue)) =
          [("b", "t-9", .correlationId, "corr")] ∧ response.joinWarnings = [] := by
    exact Failing.ok_and_of_any (by decide +kernel)
  refine ⟨response, answered, joined, warned, fun j mem => ?_⟩
  obtain ⟨n, found, same, rests⟩ := (joins_certain_iff plainText sampleServices).2.1 _ _ _ _ _ _
    answered j mem
  have scanned : ∀ s ∈ listQueryableServices sampleServices,
      (answersOf (notFound "c") s).scan ≠ .failed := by decide
  exact ⟨found, same, rests.2 scanned⟩

/-! ## A service that could not be scanned -/

def timedOut : Failure :=
  .federation ⟨504, "timed out", "upstream_timeout", some "c", none, true⟩

def sampleCandidate : JoinCandidate where
  source := ⟨"a", "t-1", some "corr", [], []⟩
  joinKind := .correlationId
  matchedValue := "corr"

/-- The task is joined although a service was not scanned. -/
theorem incomplete_scan_joined :
    ¬Certain sampleServices sampleCandidate (answersOf timedOut)
      (resolveJoinCandidate plainText sampleServices sampleCandidate (answersOf timedOut)) := by
  intro certain
  have scanned := (certain_iff (by decide)).mp certain
  exact scanned (sampleService "c" (by decide)) (by decide) (by decide)

end Relayna.Studio.Federation
