import Relayna.Contracts.Aliases
import Relayna.Foundation.Failing
import Relayna.Foundation.LogQL
import Mathlib.Data.List.Sort
import Mathlib.Data.List.Dedup
import Mathlib.Data.String.Basic

/-!
# The LogQL text of a log request

`_build_query` of `LokiLogProvider`. The labels that select the service and the labels asked for
go into one dictionary, which is written as the stream selector; what is searched in the lines
follows as filters. The fields of the configuration are what its validators return.

`format` of a replacement field with a conversion or a format specification, and `str` of a value
in an error text, are parameters.
-/
namespace Relayna.Studio.LogQueries

open Python Contracts LogQL

/-! ### Replacement fields -/

structure ReplacementField where
  name : String
  conversion : Option Char
  spec : String
  deriving DecidableEq, Repr

inductive Piece
  | literal (c : Char)
  | field (field : ReplacementField)
  deriving DecidableEq, Repr

inductive Template
  | text
  | opened
  | closed
  | naming (read : List Char) (bracket : Bool)
  | converting (name : String)
  | converted (name : String) (conversion : Char)
  | spec (name : String) (conversion : Option Char) (read : List Char) (depth : Nat)

namespace Template

def inName (read : List Char) (bracket : Bool) (c : Char) : Option (List Piece × Template) :=
  if bracket then some ([], .naming (c :: read) (c ≠ ']'))
  else if c = '\x7b' then none
  else if c = '\x7d' then some ([.field ⟨.ofList read.reverse, none, ""⟩], .text)
  else if c = ':' then some ([], .spec (.ofList read.reverse) none [] 0)
  else if c = '!' then some ([], .converting (.ofList read.reverse))
  else some ([], .naming (c :: read) (c = '['))

def step : Template → Char → Option (List Piece × Template)
  | .text, c =>
    if c = '\x7b' then some ([], .opened)
    else if c = '\x7d' then some ([], .closed)
    else some ([.literal c], .text)
  | .opened, c => if c = '\x7b' then some ([.literal c], .text) else inName [] false c
  | .closed, c => if c = '\x7d' then some ([.literal c], .text) else none
  | .naming read bracket, c => inName read bracket c
  | .converting name, c => some ([], .converted name c)
  | .converted name conversion, c =>
    if c = ':' then some ([], .spec name (some conversion) [] 0)
    else if c = '\x7d' then some ([.field ⟨name, some conversion, ""⟩], .text)
    else none
  | .spec name conversion read depth, c =>
    if c = '\x7b' then some ([], .spec name conversion (c :: read) (depth + 1))
    else if c = '\x7d' then
      match depth with
      | 0 => some ([.field ⟨name, conversion, .ofList read.reverse⟩], .text)
      | depth + 1 => some ([], .spec name conversion (c :: read) depth)
    else some ([], .spec name conversion (c :: read) depth)

/-- The pieces of a template, or nothing where `Formatter().parse` raises `ValueError`. -/
def pieces : Template → List Char → Option (List Piece)
  | .text, [] => some []
  | _, [] => none
  | state, c :: rest => (state.step c).bind fun next => (pieces next.2 rest).map (next.1 ++ ·)

end Template

/-! ### The configuration -/

inductive Failure
  /-- A `ValueError` that reaches the caller, and what a validator raises. -/
  | value
  /-- The `IndexError` of a field without a name. -/
  | index
  /-- `StudioLogConfigError`. -/
  | config (message : String)
  deriving DecidableEq, Repr

inductive FormatError
  | key | value

structure Builtins where
  /-- A field of a template that has a conversion or a format specification. -/
  format : ReplacementField → Fields (Option String) → Except FormatError String

/-- `_normalize_optional_string` of the registry. -/
def normalizeOptionalString : Value → Except Failure (Option String)
  | .none => .ok none
  | .str value => .ok (if strip value = "" then none else some (strip value))
  | _ => .error .value

/-- `_normalize_required_strings`. -/
def normalizeRequiredString : Value → Except Failure String
  | .str value => if strip value = "" then .error .value else .ok (strip value)
  | _ => .error .value

/-- A label of the selector: neither its key nor its value may be empty. -/
def normalizeLabel (entry : String × Value) : Except Failure (String × String) :=
  match normalizeOptionalString (.str entry.1), normalizeOptionalString entry.2 with
  | .ok (some key), .ok (some value) => .ok (key, value)
  | _, _ => .error .value

/-- `_normalize_service_selector_labels`. -/
def normalizeServiceSelectorLabels : Value → Except Failure (Fields String)
  | .dict labels =>
    (labels.mapM normalizeLabel).bind fun entries =>
      if entries = [] then .error .value else .ok (Fields.update [] entries)
  | _ => .error .value

inductive PodMatchMode
  | exact | regex
  deriving DecidableEq, Repr

inductive TaskMatchMode
  | label | contains | regex | structuredMetadata
  deriving DecidableEq, Repr

/-- A field that was left out, or what its validator made of the value given. -/
def Accepted {α : Type} (validate : Value → Except Failure α) (default accepted : α) : Prop :=
  accepted = default ∨ ∃ given, validate given = .ok accepted

structure LokiLogConfig where
  serviceSelectorLabels : Fields String := []
  sourceLabel : Option String := none
  podLabel : String := "pod"
  podMatchMode : PodMatchMode := .exact
  podValueTemplate : String := "\x7bpod\x7d"
  taskIdLabel : Option String := none
  correlationIdLabel : Option String := none
  levelLabel : Option String := none
  taskMatchMode : TaskMatchMode := .label
  taskMatchTemplate : Option String := none
  selector_accepted : Accepted normalizeServiceSelectorLabels [] serviceSelectorLabels
  pod_accepted : Accepted normalizeRequiredString "pod" podLabel
  template_accepted : Accepted normalizeRequiredString "\x7bpod\x7d" podValueTemplate
  optional_accepted :
    ∀ label ∈ [sourceLabel, taskIdLabel, correlationIdLabel, levelLabel, taskMatchTemplate],
      Accepted normalizeOptionalString none label

structure ServiceRecord where
  serviceId : String
  /-- The namespace of the metrics configuration, if there is one. -/
  metricsNamespace : Option String := none

structure StudioLogQuery where
  taskId : Option String := none
  correlationId : Option String := none
  level : Option String := none
  source : Option String := none
  pod : Option String := none
  query : Option String := none

/-! ### The query -/

/-- A text that is there and not empty. -/
def given (text : Option String) : Option String := text.filter (· ≠ "")

/-- `_logql_matcher_operator`. -/
def logqlMatcherOperator : PodMatchMode → Operator
  | .exact => .eq
  | .regex => .re

/-- What `value.replace(c, text)` makes of each character. -/
def replaceChar (c : Char) (text : List Char) (d : Char) : List Char := if d = c then text else [d]

/-- `_escape_logql_string`. -/
def escapeLogqlString (value : String) : List Char :=
  (value.toList.flatMap (replaceChar '\\' ['\\', '\\'])).flatMap (replaceChar '"' ['\\', '"'])

/-- The fields that a template uses. -/
def fieldNames (pieces : List Piece) : List String :=
  pieces.filterMap fun
    | .field field => given (some field.name)
    | .literal _ => none

namespace Builtins

variable (b : Builtins)

/-- `format` of one piece. -/
def formatPiece (values : Fields (Option String)) : Piece → Except Failure (List Char)
  | .literal c => .ok [c]
  | .field field =>
    let invalid : Failure := .config "log_config.pod_value_template is invalid."
    if field.name = "" then .error .index
    else
      match values.lookup field.name with
      | some (some value) =>
        if field.conversion = none ∧ field.spec = "" then .ok value.toList
        else
          match b.format field values with
          | .ok text => .ok text.toList
          | .error _ => .error invalid
      | _ => .error invalid

/-- `_render_pod_value_template`. -/
def renderPodValueTemplate (service : ServiceRecord) (config : LokiLogConfig) (pod : String) :
    Except Failure String :=
  let namespace_ := (config.serviceSelectorLabels.lookup "namespace").or service.metricsNamespace
  let values : Fields (Option String) :=
    [("pod", some pod), ("namespace", namespace_), ("service_id", some service.serviceId)]
  match Template.text.pieces config.podValueTemplate.toList with
  | none => .error .value
  | some pieces =>
    let missing := (fieldNames pieces).dedup.filter fun name =>
      ((values.lookup name).bind id).isNone
    if missing ≠ [] then
      .error (.config ("log_config.pod_value_template references unavailable variable(s): " ++
        ", ".intercalate (missing.insertionSort (· ≤ ·)) ++ "."))
    else (pieces.mapM (b.formatPiece values)).map fun texts => .ofList texts.flatten

/-- What is written into `label_filters` after the labels of the service, in this order. -/
def labelRequests (service : ServiceRecord) (config : LokiLogConfig) (query : StudioLogQuery) :
    Except Failure (Fields (Operator × String)) := do
  let source ←
    match given query.source, given config.sourceLabel with
    | none, _ => .ok []
    | some _, none =>
      .error (.config
        "Log source filtering requires log_config.source_label for this service.")
    | some source, some label => .ok [(label, .eq, source)]
  let pod ←
    match given query.pod with
    | none => .ok []
    | some pod =>
      (b.renderPodValueTemplate service config pod).map fun value =>
        [(config.podLabel, logqlMatcherOperator config.podMatchMode, value)]
  let equality (label value : Option String) : Fields (Operator × String) :=
    match given label, given value with
    | some label, some value => [(label, .eq, value)]
    | _, _ => []
  let task := if config.taskMatchMode = .label then equality config.taskIdLabel query.taskId else []
  .ok (source ++ pod ++ task ++ equality config.correlationIdLabel query.correlationId ++
    equality config.levelLabel query.level)

end Builtins

/-- `_build_task_filter`: an operator, the text and the key of the structured metadata. -/
def buildTaskFilter (config : LokiLogConfig) (query : StudioLogQuery) :
    Option (String × String × Option String) :=
  match given query.taskId with
  | none => none
  | some taskId =>
    let template := (given config.taskMatchTemplate).getD "\x7btask_id\x7d"
    let rendered := template.replace "\x7btask_id\x7d" taskId
    match config.taskMatchMode with
    | .label => none
    | .structuredMetadata => some ("|", taskId, some ((given config.taskIdLabel).getD "task_id"))
    | .contains => some ("|=", rendered, none)
    | .regex => some ("|~", rendered, none)

/-- The labels of the service, as they stand in `label_filters` first. -/
def serviceLabels (config : LokiLogConfig) : Fields (Operator × String) :=
  config.serviceSelectorLabels.map fun label => (label.1, .eq, label.2)

def writeText (text : String) : List Char := '"' :: (escapeLogqlString text ++ ['"'])

/-- The filter for the task, as it is put after the selector. -/
def taskText (config : LokiLogConfig) (query : StudioLogQuery) : List Char :=
  match buildTaskFilter config query with
  | none => []
  | some (operator, rendered, none) => ' ' :: operator.toList ++ ' ' :: writeText rendered
  | some (operator, rendered, some key) =>
    ' ' :: operator.toList ++ ' ' :: key.toList ++ '=' :: writeText rendered

def searchText (query : StudioLogQuery) : List Char :=
  match given query.query with
  | none => []
  | some text => " |= ".toList ++ writeText text

/-- `_build_query`. -/
def Builtins.buildQuery (b : Builtins) (service : ServiceRecord) (config : LokiLogConfig)
    (query : StudioLogQuery) : Except Failure String :=
  (b.labelRequests service config query).map fun requests =>
    let labelFilters := Fields.update (serviceLabels config) requests
    let sorted := labelFilters.insertionSort fun filter other => filter.1 ≤ other.1
    let selector := [','].intercalate (sorted.map fun filter =>
      filter.1.toList ++ filter.2.1.text ++ writeText filter.2.2)
    .ofList ('\x7b' :: selector ++ '\x7d' :: taskText config query ++ searchText query)

/-! ### What the parts write -/

/-- The backslashes that are written for quotes are not escaped again. -/
theorem escapeLogqlString_eq (value : String) :
    escapeLogqlString value = value.toList.flatMap escape := by
  rw [escapeLogqlString, List.flatMap_assoc]
  congr 1
  funext c
  unfold replaceChar escape
  by_cases slash : c = '\\'
  · subst slash
    rfl
  · by_cases quote : c = '"'
    · subst quote
      rfl
    · simp [slash, quote]

theorem writeText_eq (value : String) : writeText value = quoted value := by
  rw [writeText, quoted, escapeLogqlString_eq]

theorem keys_of_normalized {labels : Value} {accepted : Fields String}
    (h : normalizeServiceSelectorLabels labels = .ok accepted) :
    (accepted.map Prod.fst).Nodup := by
  unfold normalizeServiceSelectorLabels at h
  split at h
  · obtain ⟨entries, _, he⟩ := Failing.bind_ok.mp h
    split at he
    · cases he
    · cases he
      exact Fields.keys_update List.nodup_nil
  · cases h

/-- The labels of the service are in a dictionary: no key stands there twice. -/
theorem keys_serviceLabels (config : LokiLogConfig) :
    ((serviceLabels config).map Prod.fst).Nodup := by
  have keys : (config.serviceSelectorLabels.map Prod.fst).Nodup := by
    rcases config.selector_accepted with left_out | ⟨labels, h⟩
    · rw [left_out]
      exact List.nodup_nil
    · exact keys_of_normalized h
  have same : (serviceLabels config).map Prod.fst = config.serviceSelectorLabels.map Prod.fst := by
    rw [serviceLabels, List.map_map]
    rfl
  rwa [same]

end Relayna.Studio.LogQueries
