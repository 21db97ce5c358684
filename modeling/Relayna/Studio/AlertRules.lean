import Relayna.Foundation.Json
import Relayna.Foundation.PromQL
import Relayna.Contracts.Transport

/-!
# Reliability goals: the preview and the exported rules

A goal is checked in two ways. `_preview` asks Prometheus for each metric of the goal and decides in
branches. `_export` writes two rules for Prometheus, an alert and one for missing evidence, each a
conjunction over the same metrics. What a query returns is an instant vector; requests that fail and
answers that are no vector are `unavailable` in the source as well.
-/
namespace Relayna.Studio.AlertRules

open Contracts PromQL

inductive Kind
  | backlogAge | retryActivity | staleLeases | missingWorker | completionSuccess | endToEndLatency
  deriving DecidableEq, Repr

def Kind.text : Kind → String
  | .backlogAge => "backlog_age"
  | .retryActivity => "retry_activity"
  | .staleLeases => "stale_leases"
  | .missingWorker => "missing_worker"
  | .completionSuccess => "completion_success"
  | .endToEndLatency => "end_to_end_latency"

/-- The fields of a `_Goal` that its rules depend on. -/
structure Goal where
  kind : Kind
  environment : String
  threshold : ℚ
  windowSeconds : Nat := 300
  deadlineSeconds : Nat := 120
  freshnessSeconds : Nat := 180
  runtimeScopeConfirmed : Bool := false

/-- The part of a `metrics_config` that the rules use. -/
structure MetricsConfig where
  runtimeServiceLabelValue : Option String
  serviceSelectorLabels : Fields String

/-! ### The metrics of a goal -/

/-- `_selector`, with the labels in order. -/
def selector (labels : Fields String) : String :=
  ",".intercalate (labels.map fun label => label.1 ++ "=" ++ .ofList (Json.quoted label.2))

def braced (metric selector : String) : String := metric ++ "\x7b" ++ selector ++ "\x7d"

structure Cohort where
  good : String
  eligible : String
  windowStart : String
  windowEnd : String
  freshness : String

inductive Queries
  | single (value freshness : String)
  | cohort (cohort : Cohort)

/-- The texts, in the order of the dictionary. -/
def Queries.texts : Queries → List String
  | .single value freshness => [value, freshness]
  | .cohort c => [c.good, c.eligible, c.windowStart, c.windowEnd, c.freshness]

def Queries.freshness : Queries → String
  | .single _ freshness => freshness
  | .cohort c => c.freshness

/-- `_queries`. -/
def queries (goal : Goal) (runtimeService : String) : Queries :=
  let runtime := selector [("service", runtimeService)]
  let custom := selector [("deadline_seconds", toString goal.deadlineSeconds),
    ("environment", goal.environment), ("objective", goal.kind.text), ("service", runtimeService),
    ("window_seconds", toString goal.windowSeconds)]
  let reliability (metric : String) := braced ("relayna_reliability_" ++ metric) custom
  let evidence := reliability "evidence_timestamp_seconds"
  match goal.kind with
  | .retryActivity =>
    let metric := braced "relayna_tasks_retried_total" runtime
    .single ("sum(increase(" ++ metric ++ "[" ++ toString goal.windowSeconds ++ "s]))")
      ("min(timestamp(" ++ metric ++ "))")
  | .missingWorker =>
    .single ("time() - " ++ reliability "worker_heartbeat_timestamp_seconds") evidence
  | .completionSuccess | .endToEndLatency =>
    .cohort {
      good := reliability "good_work"
      eligible := reliability "eligible_work"
      windowStart := reliability "window_start_timestamp_seconds"
      windowEnd := reliability "window_end_timestamp_seconds"
      freshness := evidence }
  | .backlogAge => .single (reliability "backlog_oldest_age_seconds") evidence
  | .staleLeases => .single (reliability "stale_leases") evidence

/-! ### The rules -/

def number (n : ℚ) : Scalar := .number (.finite n)

def infinity : Scalar := .number (.inf false)

/-- The conditions on the metrics that come before those on each of them: the first of all, and what
is joined to it. -/
def validity (goal : Goal) : Queries → Expr × List Expr
  | .single value _ => (.paren (.compareScalar .ge (.given value) (number 0)), [])
  | .cohort c =>
    (.paren (.compareScalar .gt (.given c.eligible) (number 0)),
      [.paren (.compareScalar .ge (.given c.good) (number 0)),
        .paren (.compare .le (.given c.good) (.given c.eligible)),
        .paren (.compareScalar .le (.abs (.arithScalar .sub (.paren (.given c.windowEnd))
          (.paren (.sub .time (number goal.deadlineSeconds))))) (number 30)),
        .paren (.compareScalar .le (.abs (.arithScalar .sub
          (.arith .sub (.paren (.given c.windowEnd)) (.paren (.given c.windowStart)))
          (number goal.windowSeconds))) (number 1))])

/-- What alerts. -/
def condition (goal : Goal) : Queries → Expr
  | .single value _ => .paren (.compareScalar .ge (.given value) (number goal.threshold))
  | .cohort c =>
    .paren (.compareScalar .lt (.arith .div
      (.scalarArith .mul (number 100) (.paren (.given c.good))) (.paren (.given c.eligible)))
      (number goal.threshold))

/-- Each metric is finite and has one series. -/
def present (query : String) : List (Option (List String) × Expr) :=
  [(none, .paren (.compareScalar .lt (.abs (.given query)) infinity)),
    (some [], .paren (.compareScalar .eq (.aggregate .count [] (.given query)) (number 1)))]

def fresh (goal : Goal) (freshness : String) : List (Option (List String) × Expr) :=
  [(none, .paren (.compareScalar .le (.scalarArith .sub .time (.paren (.given freshness)))
      (number goal.freshnessSeconds))),
    (none, .paren (.compareScalar .le (.given freshness) .time))]

/-- Everything that is joined to the first condition of the validity. -/
def guards (goal : Goal) (q : Queries) : List (Option (List String) × Expr) :=
  (validity goal q).2.map (none, ·) ++ q.texts.flatMap present ++ fresh goal q.freshness

/-- `_expression`: the alert, and what has to hold for the evidence. -/
def expression (goal : Goal) (q : Queries) : Expr × Expr :=
  (conjunction (condition goal q) ((none, (validity goal q).1) :: guards goal q),
    conjunction (validity goal q).1 (guards goal q))

set_option maxRecDepth 4000 in
example : (expression ⟨.backlogAge, "prod", 5, 300, 120, 180, false⟩ (.single "v" "f")).1.text
      (fun | .finite value => toString value.num | _ => "Inf") =
    "(v >= 5) and (v >= 0) and (abs(v) < Inf) and on() (count(v) == 1) and (abs(f) < Inf) and " ++
      "on() (count(f) == 1) and (time() - (f) <= 180) and (f <= time())" := by
  decide

structure Rules where
  alert : Expr
  evidenceMissing : Expr

/-- The rules of `_export`. -/
def exportRules (goal : Goal) (runtimeService : String) : Rules :=
  let (condition, valid) := expression goal (queries goal runtimeService)
  { alert := .aggregate .sum [] condition, evidenceMissing := .absent (.aggregate .sum [] valid) }

/-- The value of the label `service` of the runtime's series. -/
def runtimeService (config : MetricsConfig) (serviceId : String) : String :=
  let given (text : Option String) := text.filter (· ≠ "")
  ((given config.runtimeServiceLabelValue).or
    (given (config.serviceSelectorLabels.lookup "service"))).getD serviceId

/-- `export_goal`, or nothing where it answers 409. -/
def exportGoal (goal : Goal) (serviceId : String) (config : Option MetricsConfig) : Option Rules :=
  if goal.kind = .retryActivity ∧ goal.runtimeScopeConfirmed = false then none
  else config.map fun config => exportRules goal (runtimeService config serviceId)

/-! ### The preview -/

inductive State
  | unsupported | unavailable | noData | stale | insufficient | breaching | observed
  deriving DecidableEq, Repr

/-- `_sample`: a series too many raises, and a value that is not finite is none. -/
def sample : Vector → Except Unit (Option ℚ)
  | [] => .ok none
  | [s] =>
    match s.value with
    | .finite value => .ok (some value)
    | _ => .ok none
  | _ => .error ()

/-- The branches of `_preview` after the samples are there. -/
def judge (goal : Goal) (now : ℚ) : List ℚ → State
  | [value, evidence] =>
    if ¬(0 ≤ now - evidence ∧ now - evidence ≤ goal.freshnessSeconds) then .stale
    else if value < 0 then .insufficient
    else if goal.threshold ≤ value then .breaching
    else .observed
  | [good, eligible, windowStart, windowEnd, evidence] =>
    if ¬(0 ≤ now - evidence ∧ now - evidence ≤ goal.freshnessSeconds) then .stale
    else if eligible ≤ 0 then .noData
    else if good < 0 ∨ eligible < good ∨ 30 < |windowEnd - (now - goal.deadlineSeconds)| ∨
        1 < |windowEnd - windowStart - goal.windowSeconds| then .insufficient
    else if 100 * good / eligible < goal.threshold then .breaching
    else .observed
  | _ => .noData

/-- `_preview`. -/
def preview (goal : Goal) (serviceId : String) (config : Option MetricsConfig) (now : ℚ)
    (answer : String → Vector) : State :=
  if goal.kind = .retryActivity ∧ goal.runtimeScopeConfirmed = false then .unsupported
  else
    match config with
    | none => .unsupported
    | some config =>
      match (queries goal (runtimeService config serviceId)).texts.mapM fun query =>
          sample (answer query) with
      | .error () => .unavailable
      | .ok values =>
        match values.mapM id with
        | none => .noData
        | some samples => judge goal now samples

end Relayna.Studio.AlertRules
