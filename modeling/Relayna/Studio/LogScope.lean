import Relayna.Studio.LogQueries

/-!
# What a log query selects

The text of a query is read as a LogQL query. It is the query that was asked for, with the labels of
the service, the labels requested and the filters on the lines, exactly when every name is an
identifier, no value has a line break or a NUL, and no label is given two values: what is written
into the dictionary later replaces what stands there.
-/
namespace Relayna.Studio.LogQueries

open Python Contracts LogQL

def matcher (filter : String × Operator × String) : Matcher := ⟨filter.1, filter.2.1, filter.2.2⟩

/-- The labels of the service and those requested. -/
def Builtins.asked (b : Builtins) (service : ServiceRecord) (config : LokiLogConfig)
    (query : StudioLogQuery) : Except Failure (List Matcher) :=
  (b.labelRequests service config query).map fun requests =>
    (serviceLabels config ++ requests).map matcher

/-- The filters on the lines, with the texts as they were requested. -/
def askedStages (config : LokiLogConfig) (query : StudioLogQuery) : List Stage :=
  (match given query.taskId with
    | none => []
    | some taskId =>
      let template := (given config.taskMatchTemplate).getD "\x7btask_id\x7d"
      let rendered := template.replace "\x7btask_id\x7d" taskId
      match config.taskMatchMode with
      | .label => []
      | .structuredMetadata => [.label ((given config.taskIdLabel).getD "task_id") .eq taskId]
      | .contains => [.line .contains rendered]
      | .regex => [.line .matching rendered]) ++
    (given query.query).toList.map (.line .contains ·)

/-- A text that is read as a query with these matchers and these stages. -/
def Selects (x : Lexis) (text : String) (matchers : List Matcher) (stages : List Stage) : Prop :=
  ∃ q, x.read text = some q ∧ (∀ m, m ∈ q.matchers ↔ m ∈ matchers) ∧ q.stages = stages

structure Writable (x : Lexis) (matchers : List Matcher) (stages : List Stage) : Prop where
  names : ∀ name ∈ Query.names ⟨matchers, stages⟩, x.Identifier name
  values : ∀ value ∈ Query.values ⟨matchers, stages⟩, Readable value
  agree : ∀ m ∈ matchers, ∀ n ∈ matchers, m.name = n.name → m = n

section Query

variable {x : Lexis} {b : Builtins} {service : ServiceRecord} {config : LokiLogConfig}
  {query : StudioLogQuery} {requests : Fields (Operator × String)}

/-- The dictionary as it is written, in the order of its keys. -/
def sortedFilters (config : LokiLogConfig) (requests : Fields (Operator × String)) :
    Fields (Operator × String) :=
  (Fields.update (serviceLabels config) requests).insertionSort fun filter other =>
    filter.1 ≤ other.1

theorem mem_sortedFilters {filter : String × Operator × String} :
    filter ∈ sortedFilters config requests ↔
      filter ∈ Fields.update (serviceLabels config) requests :=
  (List.perm_insertionSort _ _).mem_iff

/-- The query that is written. -/
def written (config : LokiLogConfig) (requests : Fields (Operator × String))
    (query : StudioLogQuery) : Query :=
  ⟨(sortedFilters config requests).map matcher, askedStages config query⟩

theorem render_selector (filters : Fields (Operator × String)) :
    [','].intercalate (filters.map fun filter =>
      filter.1.toList ++ filter.2.1.text ++ writeText filter.2.2) =
      renderMatchers (filters.map matcher) := by
  rw [renderMatchers_eq, List.map_map]
  congr 1
  refine List.map_congr_left fun filter _ => ?_
  rw [writeText_eq, List.append_assoc]
  rfl

theorem render_task (config : LokiLogConfig) (query : StudioLogQuery) :
    taskText config query ++ searchText query =
      (askedStages config query).flatMap fun s => ' ' :: s.render := by
  unfold askedStages
  rw [List.flatMap_append]
  congr 1
  · unfold taskText buildTaskFilter
    cases given query.taskId with
    | none => rfl
    | some taskId =>
      cases config.taskMatchMode <;>
        simp [writeText_eq, Stage.render, LineOperator.text, Operator.text]
  · unfold searchText
    cases given query.query <;> simp [writeText_eq, Stage.render, LineOperator.text]

theorem buildQuery_ok (h : b.labelRequests service config query = .ok requests) :
    b.buildQuery service config query = .ok (.ofList (written config requests query).render) := by
  have whole : (written config requests query).render =
      '\x7b' :: (([','].intercalate ((sortedFilters config requests).map fun filter =>
        filter.1.toList ++ filter.2.1.text ++ writeText filter.2.2)) ++
        '\x7d' :: (taskText config query ++ searchText query)) := by
    rw [Query.render, written, render_task, render_selector]
  rw [Builtins.buildQuery, h, whole, ← List.cons_append, ← List.cons_append, ← List.append_assoc]
  rfl

theorem mem_written {m : Matcher} :
    m ∈ (written config requests query).matchers ↔
      ∃ filter ∈ Fields.update (serviceLabels config) requests, matcher filter = m := by
  simp only [written, List.mem_map, mem_sortedFilters]

theorem matcher_injective : Function.Injective matcher := by
  rintro ⟨name, operator, value⟩ ⟨name', operator', value'⟩ same
  cases same
  rfl

/-- The dictionary holds what was asked for when no label is asked for twice. -/
theorem matchers_written (config : LokiLogConfig) (query : StudioLogQuery)
    (requests : Fields (Operator × String)) :
    (∀ m, m ∈ (written config requests query).matchers ↔
        m ∈ (serviceLabels config ++ requests).map matcher) ↔
      ∀ m ∈ (serviceLabels config ++ requests).map matcher,
        ∀ n ∈ (serviceLabels config ++ requests).map matcher, m.name = n.name → m = n := by
  have whole := Fields.subset_update_iff (e := requests) (keys_serviceLabels config)
  have agree : (∀ m ∈ (serviceLabels config ++ requests).map matcher,
      ∀ n ∈ (serviceLabels config ++ requests).map matcher, m.name = n.name → m = n) ↔
      ∀ entry ∈ serviceLabels config ++ requests, ∀ other ∈ serviceLabels config ++ requests,
        entry.1 = other.1 → entry = other := by
    simp only [List.forall_mem_map, matcher_injective.eq_iff]
    rfl
  rw [agree, ← whole]
  constructor
  · intro same entry he
    obtain ⟨filter, hf, eq⟩ := mem_written.mp ((same _).mpr (List.mem_map_of_mem he))
    exact matcher_injective eq ▸ hf
  · intro kept m
    rw [mem_written, List.mem_map]
    constructor
    · rintro ⟨filter, hf, rfl⟩
      exact ⟨filter, Fields.mem_of_mem_update hf, rfl⟩
    · rintro ⟨filter, hf, rfl⟩
      exact ⟨filter, kept filter hf, rfl⟩

theorem written_subset :
    (written config requests query).matchers ⊆ (serviceLabels config ++ requests).map matcher := by
  intro m hm
  obtain ⟨filter, hf, rfl⟩ := mem_written.mp hm
  exact List.mem_map_of_mem (Fields.mem_of_mem_update hf)

/-- The names and the values of the dictionary are among those that were asked for. -/
theorem names_written {name : String}
    (h : name ∈ (written config requests query).names) :
    name ∈ Query.names ⟨(serviceLabels config ++ requests).map matcher,
      askedStages config query⟩ :=
  List.mem_append.mpr ((List.mem_append.mp h).imp_left (List.map_subset _ written_subset ·))

theorem values_written {value : String}
    (h : value ∈ (written config requests query).values) :
    value ∈ Query.values ⟨(serviceLabels config ++ requests).map matcher,
      askedStages config query⟩ :=
  List.mem_append.mpr ((List.mem_append.mp h).imp_left (List.map_subset _ written_subset ·))

/-- The same matchers have the same names and values. -/
theorem names_congr {ms ns : List Matcher} (same : ∀ m, m ∈ ms ↔ m ∈ ns) (stages : List Stage)
    {name : String} : name ∈ Query.names ⟨ms, stages⟩ ↔ name ∈ Query.names ⟨ns, stages⟩ := by
  simp [Query.names, same]

theorem values_congr {ms ns : List Matcher} (same : ∀ m, m ∈ ms ↔ m ∈ ns) (stages : List Stage)
    {value : String} : value ∈ Query.values ⟨ms, stages⟩ ↔ value ∈ Query.values ⟨ns, stages⟩ := by
  simp [Query.values, same]

theorem selects_written_iff (x : Lexis) (config : LokiLogConfig) (query : StudioLogQuery)
    (requests : Fields (Operator × String)) :
    Selects x (.ofList (written config requests query).render)
        ((serviceLabels config ++ requests).map matcher) (askedStages config query) ↔
      Writable x ((serviceLabels config ++ requests).map matcher) (askedStages config query) := by
  constructor
  · rintro ⟨q, hr, same, rfl'⟩
    obtain ⟨matchers, stages⟩ := q
    subst rfl'
    have identifiers : ∀ name ∈ Query.names ⟨(serviceLabels config ++ requests).map matcher,
        askedStages config query⟩, x.Identifier name := fun name hn =>
      Lexis.names_of_read hr name ((names_congr same _).mpr hn)
    have read := Lexis.read_render (x := x) (q := written config requests query) fun name hn =>
      identifiers name (names_written hn)
    rw [hr] at read
    split at read
    · rename_i readable
      have whole : (⟨matchers, askedStages config query⟩ : Query) =
          written config requests query := Option.some.inj read
      have held : ∀ m, m ∈ (written config requests query).matchers ↔
          m ∈ (serviceLabels config ++ requests).map matcher := by
        rw [← whole]
        exact same
      have agree := (matchers_written config query requests).mp held
      refine ⟨identifiers, fun value hv => readable value ?_, agree⟩
      rw [← whole]
      exact (values_congr same _).mpr hv
    · cases read
  · intro writable
    have read := Lexis.read_render (x := x) (q := written config requests query) fun name hn =>
      writable.names name (names_written hn)
    rw [if_pos fun value hv => writable.values value (values_written hv)] at read
    exact ⟨_, read, (matchers_written config query requests).mpr writable.agree, rfl⟩

end Query

/-- The text of a query selects what was asked for exactly when that can be written. -/
theorem buildQuery_selects_iff (x : Lexis) (b : Builtins) (service : ServiceRecord)
    (config : LokiLogConfig) (query : StudioLogQuery) {matchers : List Matcher}
    (h : b.asked service config query = .ok matchers) :
    ∃ text, b.buildQuery service config query = .ok text ∧
      (Selects x text matchers (askedStages config query) ↔
        Writable x matchers (askedStages config query)) := by
  obtain ⟨requests, hr, rfl⟩ := Failing.map_ok.mp h
  exact ⟨_, buildQuery_ok hr, selects_written_iff x config query requests⟩

def asciiLetter (c : Char) : Bool := c.isAlpha || c == '_'

theorem asciiSigns_plain : ∀ c ∈ signs, asciiLetter c = false ∧ c.isDigit = false := by
  intro c h
  have plain : signs.all (fun c => !asciiLetter c && !c.isDigit) = true := by decide
  have both := List.all_eq_true.mp plain c h
  simpa using both

def asciiLexis : Lexis where
  letter := asciiLetter
  digit := Char.isDigit
  keyword name := name ∈ ["by", "without", "json", "logfmt", "unwrap", "on", "ignoring", "bool"]
  coded _ := .bad
  sign_plain := asciiSigns_plain

def plainFormat : Builtins := ⟨fun _ _ => .error .value⟩

theorem app_accepted : normalizeServiceSelectorLabels (.dict [("app", .str "payments")]) =
    .ok [("app", "payments")] := by decide

theorem component_accepted :
    normalizeOptionalString (.str "component") = .ok (some "component") := by decide

/-- A service that is selected by one label and finds the source in another. -/
def appConfig : LokiLogConfig where
  serviceSelectorLabels := [("app", "payments")]
  sourceLabel := some "component"
  selector_accepted := .inr ⟨_, app_accepted⟩
  pod_accepted := .inl rfl
  template_accepted := .inl rfl
  optional_accepted label h := by
    simp only [List.mem_cons, List.not_mem_nil, or_false] at h
    rcases h with rfl | rfl | rfl | rfl | rfl
    · exact .inr ⟨_, component_accepted⟩
    all_goals exact .inl rfl

theorem buildQuery_selects_source :
    plainFormat.buildQuery ⟨"svc", none⟩ appConfig { source := some "billing" } =
        .ok "\x7bapp=\"payments\",component=\"billing\"\x7d" ∧
      Selects asciiLexis "\x7bapp=\"payments\",component=\"billing\"\x7d"
        [⟨"app", .eq, "payments"⟩, ⟨"component", .eq, "billing"⟩] [] := by
  have written : plainFormat.buildQuery ⟨"svc", none⟩ appConfig { source := some "billing" } =
      .ok "\x7bapp=\"payments\",component=\"billing\"\x7d" := by decide +kernel
  have writable : Writable asciiLexis
      [⟨"app", .eq, "payments"⟩, ⟨"component", .eq, "billing"⟩] [] := by
    refine ⟨?_, by decide, by decide⟩
    intro name hn
    have one : name = "app" ∨ name = "component" := by simpa [Query.names] using hn
    rcases one with rfl | rfl
    · exact ⟨⟨'a', ['p', 'p'], by decide⟩, by decide⟩
    · exact ⟨⟨'c', ['o', 'm', 'p', 'o', 'n', 'e', 'n', 't'], by decide⟩, by decide⟩
  obtain ⟨text, built, selects⟩ := buildQuery_selects_iff asciiLexis plainFormat ⟨"svc", none⟩
    appConfig { source := some "billing" } rfl
  obtain rfl := Except.ok.inj (written.symm.trans built)
  exact ⟨written, selects.mpr writable⟩

end Relayna.Studio.LogQueries
