import Relayna.Foundation.Failing
import Relayna.Studio.LogPages
import Relayna.Studio.ProviderAnswers

/-!
# Answers that a provider does not survive

Which answers of Loki, Tempo and Prometheus are read or refused, and which raise something else: a
time that `datetime` has no date for, a number that overflows, digits that `int` does not take, or a
payload of Prometheus that is no object.
-/
namespace Relayna.Studio.ProviderAnswers

open Python Contracts Doubles

/-! ## Loki -/

namespace Loki

variable (c : Logs.Builtins)

/-- A result or an error of the provider. -/
def Handled {α : Type} (r : Except Logs.LogError α) : Prop := r ≠ .error .conversion

/-- The cursor of a value that makes an entry. -/
def cursorOf : Value → Option String
  | .list (time :: _ :: _) =>
    if c.digits (strip (c.text.str time)) then some (strip (c.text.str time)) else none
  | _ => none

def streamCursors (stream : Value) : List String :=
  match stream.get "stream", stream.get "values" with
  | some (.dict _), some (.list values) => values.filterMap (cursorOf c)
  | _, _ => []

/-- The cursors of an answer of the right shape. -/
def cursors (payload : Value) : List String :=
  let data := (payload.get "data").getD .none
  if Logs.Builtins.isText "success" (payload.get "status") ∧
      Logs.Builtins.isText "streams" (data.get "resultType") then
    match data.get "result" with
    | some (.list result) => result.flatMap (streamCursors c)
    | _ => []
  else []

/-- Its digits are those of a number, and the number of nanoseconds has a date. -/
def CursorDated (cursor : String) : Prop :=
  ∃ ns, intOfString cursor = some ns ∧
    (c.utcIso (ns.toNat / 1000000000) (ns.toNat % 1000000000 / 1000)).isSome = true

variable {c} {serviceId : String} {config : Logs.LokiLogConfig}

theorem lokiNsToIso_ok_iff {cursor : String} :
    (∃ iso, c.lokiNsToIso cursor = .ok iso) ↔ CursorDated c cursor := by
  rw [Logs.Builtins.lokiNsToIso, CursorDated]
  cases intOfString cursor with
  | none => simp
  | some ns =>
    cases found : c.utcIso (ns.toNat / 1000000000) (ns.toNat % 1000000000 / 1000) <;> simp [found]

theorem lokiNsToIso_error {cursor : String} {e : Logs.LogError}
    (h : c.lokiNsToIso cursor = .error e) : e = .conversion := by
  rw [Logs.Builtins.lokiNsToIso] at h
  split at h
  · split at h <;> cases h
    rfl
  · cases h
    rfl

theorem normalizeValue_ok_iff {labels : Fields String} {value : Value} :
    (∃ entry, c.normalizeValue serviceId config labels value = .ok entry) ↔
      ∀ cursor ∈ cursorOf c value, CursorDated c cursor := by
  rw [Logs.Builtins.normalizeValue.eq_def, cursorOf.eq_def]
  split
  · rename_i time _ _
    dsimp only
    by_cases digits : c.digits (strip (c.text.str time)) = true
    · rw [if_pos digits, if_pos digits, Failing.map_ok_iff, lokiNsToIso_ok_iff]
      simp only [Option.mem_some_iff, forall_eq']
    · rw [if_neg digits, if_neg digits]
      simp
  · simp

theorem normalizeValue_error {labels : Fields String} {value : Value} {e : Logs.LogError}
    (h : c.normalizeValue serviceId config labels value = .error e) : e = .conversion := by
  rw [Logs.Builtins.normalizeValue.eq_def] at h
  split at h
  · rename_i time _ _
    dsimp only at h
    by_cases digits : c.digits (strip (c.text.str time)) = true
    · rw [if_pos digits] at h
      exact lokiNsToIso_error (Failing.map_error.mp h)
    · rw [if_neg digits] at h
      cases h
  · cases h

theorem normalizeStream_ok_iff {stream : Value} :
    (∃ entries, c.normalizeStream serviceId config stream = .ok entries) ↔
      ∀ cursor ∈ streamCursors c stream, CursorDated c cursor := by
  rw [Logs.Builtins.normalizeStream, streamCursors]
  rcases stream.get "stream" with - | labels
  · simp
  cases labels with
  | dict labels =>
    rcases stream.get "values" with - | values
    · simp
    cases values with
    | list values =>
      dsimp only
      rw [Failing.map_ok_iff, Failing.mapM_ok_iff]
      simp only [normalizeValue_ok_iff, List.mem_filterMap]
      constructor
      · rintro all cursor ⟨v, mem, made⟩
        exact all v mem cursor made
      · intro all v mem cursor made
        exact all cursor ⟨v, mem, made⟩
    | _ => simp
  | _ => simp

theorem normalizeStream_error {stream : Value} {e : Logs.LogError}
    (h : c.normalizeStream serviceId config stream = .error e) : e = .conversion := by
  rw [Logs.Builtins.normalizeStream] at h
  split at h
  · obtain ⟨value, -, raised⟩ := Failing.mapM_error (Failing.map_error.mp h)
    exact normalizeValue_error raised
  · cases h

/-- An answer of Loki is read or refused exactly if every cursor in it has a date. -/
theorem normalizeResponse_handled_iff {payload : Value} :
    Handled (c.normalizeResponse serviceId config payload) ↔
      ∀ cursor ∈ cursors c payload, CursorDated c cursor := by
  rw [Handled, Logs.Builtins.normalizeResponse, cursors]
  by_cases success : Logs.Builtins.isText "success" (payload.get "status") = true
  swap
  · simp [success]
  by_cases streams : Logs.Builtins.isText "streams"
      (((payload.get "data").getD .none).get "resultType") = true
  swap
  · simp [success, streams]
  dsimp only
  rw [if_pos success, if_pos streams, if_pos ⟨success, streams⟩]
  rcases ((payload.get "data").getD .none).get "result" with - | result
  · simp
  cases result with
  | list result =>
    have read : (∃ entries, Except.map (fun streams => Descending.sort Logs.Builtins.byCursor
        streams.flatten) (result.mapM (c.normalizeStream serviceId config)) = .ok entries) ↔
        ∀ cursor ∈ result.flatMap (streamCursors c), CursorDated c cursor := by
      rw [Failing.map_ok_iff, Failing.mapM_ok_iff]
      simp only [normalizeStream_ok_iff, List.mem_flatMap]
      constructor
      · rintro all cursor ⟨v, mem, made⟩
        exact all v mem cursor made
      · intro all v mem cursor made
        exact all cursor ⟨v, mem, made⟩
    dsimp only
    rw [← read, Failing.ne_error_iff]
    intro e raised
    obtain ⟨stream, -, failed⟩ := Failing.mapM_error (Failing.map_error.mp raised)
    exact normalizeStream_error failed
  | _ => simp

end Loki

/-! ## Tempo -/

/-- A result or an error of the provider. -/
def Handled {α : Type} (r : Except Failure α) : Prop := ∀ e, r ≠ .error (.escaped e)

theorem handled_iff_ok {α : Type} {r : Except Failure α}
    (only : ∀ f, r = .error f → ∃ e, f = .escaped e) : Handled r ↔ ∃ a, r = .ok a := by
  cases r with
  | ok a => exact ⟨fun _ => ⟨a, rfl⟩, fun _ e raised => by cases raised⟩
  | error f =>
    obtain ⟨e, rfl⟩ := only f rfl
    exact ⟨fun handled => absurd rfl (handled e), fun ⟨a, ok⟩ => by cases ok⟩

theorem escaped_of_mapError {α : Type} {r : Except PyError α} {f : Failure}
    (h : r.mapError Failure.escaped = .error f) : ∃ e, f = .escaped e := by
  obtain ⟨e, -, rfl⟩ := Failing.mapError_error.mp h
  exact ⟨e, rfl⟩

namespace Tempo

variable {c : Builtins} {backendUrl : String} {service : Option String}

/-- What stands for a time is no number, or a number of nanoseconds in the years 1 to 9999. -/
def TimeRead (value : Option Value) : Prop :=
  match (value.getD .none).toInt with
  | .ok ns => ∃ t, trueDiv ns 1000000000 = .ok t ∧ InYears (microseconds t)
  | .error e => e ≠ .overflowError

def batchSpans : Value → List (Fields Value)
  | .dict batch => spansOfBatch batch
  | _ => []

/-- The spans of an answer that are looked at. -/
def spans : Value → List (Fields Value)
  | .dict payload =>
    match batchesOf (tracePayload payload) with
    | .list batches => batches.flatMap batchSpans
    | _ => []
  | _ => []

theorem intOrNone_error {value : Option Value} {f : Failure} (h : intOrNone value = .error f) :
    ∃ e, f = .escaped e := by
  rw [intOrNone] at h
  split at h <;> cases h
  exact ⟨_, rfl⟩

theorem nsToIso_error {ns : Option Int} {f : Failure} (h : nsToIso c ns = .error f) :
    ∃ e, f = .escaped e := by
  cases ns with
  | none => cases h
  | some ns => exact escaped_of_mapError (Failing.map_error.mp h)

theorem durationMs_error {startNs endNs : Option Int} {f : Failure}
    (h : durationMs startNs endNs = .error f) : ∃ e, f = .escaped e := by
  rw [durationMs.eq_def] at h
  split at h
  · split_ifs at h
    exact escaped_of_mapError (Failing.map_error.mp h)
  · cases h

theorem nsToIso_ok_iff {ns : Int} :
    (∃ iso, nsToIso c (some ns) = .ok iso) ↔
      ∃ t, trueDiv ns 1000000000 = .ok t ∧ InYears (microseconds t) := by
  rw [nsToIso, Failing.map_ok_iff]
  constructor
  · rintro ⟨us, ok⟩
    obtain ⟨t, divided, ok⟩ := Failing.bind_ok.mp (Failing.mapError_ok.mp ok)
    exact ⟨t, divided, dated_isOk_iff.mp ⟨us, ok⟩⟩
  · rintro ⟨t, divided, years⟩
    obtain ⟨us, ok⟩ := (dated_isOk_iff (p := c.platform)).mpr years
    exact ⟨us, Failing.mapError_ok.mpr (Failing.bind_ok.mpr ⟨t, divided, ok⟩)⟩

/-- What stands for a time is read exactly if it is converted and has a date. -/
theorem timeRead_iff {value : Option Value} :
    TimeRead value ↔ ∃ ns, intOrNone value = .ok ns ∧ ∃ iso, nsToIso c ns = .ok iso := by
  rw [TimeRead, intOrNone]
  cases (value.getD .none).toInt with
  | ok ns =>
    dsimp only
    rw [← nsToIso_ok_iff (c := c)]
    exact ⟨fun dated => ⟨some ns, rfl, dated⟩, fun ⟨_, same, dated⟩ => by cases same; exact dated⟩
  | error e =>
    cases e with
    | overflowError => simp
    | _ => exact ⟨fun _ => ⟨none, rfl, none, rfl⟩, fun _ => by simp⟩

theorem durationMs_ok {startNs endNs : Option Int} {a b : Option String}
    (start : nsToIso c startNs = .ok a) (stop : nsToIso c endNs = .ok b) :
    ∃ ms, durationMs startNs endNs = .ok ms := by
  rw [durationMs.eq_def]
  split
  · obtain ⟨t, divided, years⟩ := nsToIso_ok_iff.mp ⟨a, start⟩
    obtain ⟨u, divided', years'⟩ := nsToIso_ok_iff.mp ⟨b, stop⟩
    split_ifs
    · rw [Failing.map_ok_iff]
      obtain ⟨q, ok⟩ := trueDiv_sub (abs_lt_of_inYears divided' years')
        (abs_lt_of_inYears divided years)
      exact ⟨q, Failing.mapError_ok.mpr ok⟩
    · exact ⟨_, rfl⟩
  · exact ⟨_, rfl⟩

theorem normalizeSpan_ok_iff {raw : Fields Value} :
    (∃ span, normalizeSpan c service backendUrl raw = .ok span) ↔
      TimeRead (startOf raw) ∧ TimeRead (endOf raw) := by
  rw [timeRead_iff (c := c), timeRead_iff (c := c), normalizeSpan]
  constructor
  · rintro ⟨span, ok⟩
    obtain ⟨startNs, start, ok⟩ := Failing.bind_ok.mp ok
    obtain ⟨endNs, stop, ok⟩ := Failing.bind_ok.mp ok
    obtain ⟨ms, -, ok⟩ := Failing.bind_ok.mp ok
    obtain ⟨startTime, started, ok⟩ := Failing.bind_ok.mp ok
    obtain ⟨endTime, ended, -⟩ := Failing.bind_ok.mp ok
    exact ⟨⟨startNs, start, startTime, started⟩, ⟨endNs, stop, endTime, ended⟩⟩
  · rintro ⟨⟨startNs, start, startTime, started⟩, ⟨endNs, stop, endTime, ended⟩⟩
    obtain ⟨ms, lasted⟩ := durationMs_ok started ended
    rw [start, stop]
    simp only [bind, Except.bind]
    rw [lasted, started, ended]
    exact ⟨_, rfl⟩

theorem normalizeSpan_error {raw : Fields Value} {f : Failure}
    (h : normalizeSpan c service backendUrl raw = .error f) : ∃ e, f = .escaped e := by
  rw [normalizeSpan] at h
  obtain raised | ⟨startNs, -, h⟩ := Failing.bind_error.mp h
  · exact intOrNone_error raised
  obtain raised | ⟨endNs, -, h⟩ := Failing.bind_error.mp h
  · exact intOrNone_error raised
  obtain raised | ⟨ms, -, h⟩ := Failing.bind_error.mp h
  · exact durationMs_error raised
  obtain raised | ⟨startTime, -, h⟩ := Failing.bind_error.mp h
  · exact nsToIso_error raised
  obtain raised | ⟨endTime, -, h⟩ := Failing.bind_error.mp h
  · exact nsToIso_error raised
  cases h

theorem normalizeBatch_ok_iff {batch : Value} :
    (∃ made, normalizeBatch c backendUrl batch = .ok made) ↔
      ∀ raw ∈ batchSpans batch, TimeRead (startOf raw) ∧ TimeRead (endOf raw) := by
  cases batch with
  | dict batch =>
    rw [normalizeBatch, Failing.mapM_ok_iff, batchSpans]
    simp only [normalizeSpan_ok_iff]
  | _ => simp [normalizeBatch, batchSpans]

theorem normalizeBatch_error {batch : Value} {f : Failure}
    (h : normalizeBatch c backendUrl batch = .error f) : ∃ e, f = .escaped e := by
  rw [normalizeBatch.eq_def] at h
  split at h
  · obtain ⟨raw, -, raised⟩ := Failing.mapM_error h
    exact normalizeSpan_error raised
  · cases h

/-- An answer of Tempo is read or refused exactly if both times of every span can be read. -/
theorem normalizeResponse_handled_iff {payload : Value} :
    Handled (normalizeResponse c backendUrl payload) ↔
      ∀ raw ∈ spans payload, TimeRead (startOf raw) ∧ TimeRead (endOf raw) := by
  cases payload with
  | dict payload =>
    rw [normalizeResponse, spans]
    cases batchesOf (tracePayload payload) with
    | list batches =>
      dsimp only
      rw [handled_iff_ok]
      · have read : (∃ made, batches.mapM (normalizeBatch c backendUrl) = .ok made) ↔
            ∀ raw ∈ batches.flatMap batchSpans, TimeRead (startOf raw) ∧ TimeRead (endOf raw) := by
          rw [Failing.mapM_ok_iff]
          simp only [normalizeBatch_ok_iff, List.mem_flatMap]
          constructor
          · rintro all raw ⟨v, mem, inside⟩
            exact all v mem raw inside
          · intro all v mem raw inside
            exact all raw ⟨v, mem, inside⟩
        rw [← read]
        constructor
        · rintro ⟨_, ok⟩
          exact ⟨_, (Failing.bind_ok.mp ok).choose_spec.1⟩
        · rintro ⟨_, ok⟩
          exact ⟨_, Failing.bind_ok.mpr ⟨_, ok, rfl⟩⟩
      · intro f h
        obtain raised | ⟨made, -, h⟩ := Failing.bind_error.mp h
        · obtain ⟨batch, -, raised⟩ := Failing.mapM_error raised
          exact normalizeBatch_error raised
        · cases h
    | _ => simp [Handled]
  | _ => simp [Handled, normalizeResponse, spans]

end Tempo

/-! ## Prometheus -/

namespace Prometheus

variable {c : Builtins}

/-- What becomes of something in an answer. -/
inductive Verdict where
  | fine
  | refused
  | crashes
  deriving DecidableEq, Repr

/-- What comes first decides, unless it is fine. -/
def Verdict.then : Verdict → Verdict → Verdict
  | .fine, v => v
  | v, _ => v

theorem then_fine (v : Verdict) : v.then .fine = v := by
  cases v <;> rfl

def first (verdicts : List Verdict) : Verdict := verdicts.foldr Verdict.then .fine

/-- An integer that is too large for a double crashes; what is no number is refused. -/
def numberVerdict (value : Value) : Verdict :=
  match toFloat value with
  | .ok _ => .fine
  | .error e => if e = .typeError ∨ e = .valueError then .refused else .crashes

/-- An infinite time crashes, and so does one that `gmtime` does not take; a time of another year
than 1 to 9999 is refused. -/
def timeVerdict (p : Platform) (value : Value) : Verdict :=
  (numberVerdict value).then
    (match toFloat value with
    | .ok (.inf _) => .crashes
    | .ok (.finite t) =>
      let seconds := microseconds t / 1000000
      if seconds < -2 ^ 63 ∨ 2 ^ 63 ≤ seconds ∨ seconds < p.first ∨ p.last < seconds then .crashes
      else if InYears (microseconds t) then .fine
      else .refused
    | _ => .refused)

def pointVerdict (p : Platform) : Value → Verdict
  | .list [rawTimestamp, rawValue] => (timeVerdict p rawTimestamp).then (numberVerdict rawValue)
  | _ => .refused

def seriesVerdict (p : Platform) (item : Fields Value) : Verdict :=
  match item.lookup "metric", item.lookup "values" with
  | some (.dict _), some (.list values) => first (values.map (pointVerdict p))
  | _, _ => .refused

/-- A payload that is no object crashes. One of another shape is refused, and else the first series
that is not fine decides. -/
def responseVerdict (p : Platform) (payload : Value) : Verdict :=
  match resultOf "query" "matrix" payload with
  | .ok result => first ((objects result).map (seriesVerdict p))
  | .error (.provider _) => .refused
  | .error (.escaped _) => .crashes

/-- A result, an error of the provider or another one. -/
def Verdict.Of {α : Type} : Verdict → Except Failure α → Prop
  | .fine, r => ∃ a, r = .ok a
  | .refused, r => ∃ message, r = .error (.provider message)
  | .crashes, r => ∃ e, r = .error (.escaped e)

theorem handled_iff_of {α : Type} {v : Verdict} {r : Except Failure α} (h : v.Of r) :
    Handled r ↔ v ≠ .crashes := by
  cases v with
  | fine =>
    obtain ⟨a, rfl⟩ := h
    exact ⟨fun _ => by decide, fun _ e raised => by cases raised⟩
  | refused =>
    obtain ⟨message, rfl⟩ := h
    exact ⟨fun _ => by decide, fun _ e raised => by cases raised⟩
  | crashes =>
    obtain ⟨e, rfl⟩ := h
    exact ⟨fun handled => absurd rfl (handled e), fun ne => absurd rfl ne⟩

/-- What comes of one step and then of another. -/
theorem of_bind {α β : Type} {v w : Verdict} {r : Except Failure α} {f : α → Except Failure β}
    (hr : v.Of r) (hf : ∀ a, r = .ok a → w.Of (f a)) : (v.then w).Of (r >>= f) := by
  cases v with
  | fine =>
    obtain ⟨a, rfl⟩ := hr
    exact hf a rfl
  | refused =>
    obtain ⟨message, rfl⟩ := hr
    exact ⟨message, rfl⟩
  | crashes =>
    obtain ⟨e, rfl⟩ := hr
    exact ⟨e, rfl⟩

theorem of_mapM {α β : Type} {f : α → Except Failure β} {v : α → Verdict}
    (each : ∀ a, (v a).Of (f a)) (l : List α) : (first (l.map v)).Of (l.mapM f) := by
  induction l with
  | nil => exact ⟨[], rfl⟩
  | cons a l ih =>
    rw [List.mapM_cons]
    refine of_bind (each a) fun b _ => ?_
    rw [← then_fine (List.foldr _ _ _)]
    exact of_bind ih fun bs _ => ⟨_, rfl⟩

theorem of_number (value : Value) : (numberVerdict value).Of ((toFloat value).mapError refuse) := by
  rw [numberVerdict]
  cases toFloat value with
  | ok d => exact ⟨d, rfl⟩
  | error e => cases e <;> exact ⟨_, rfl⟩

theorem of_dated (p : Platform) (us : Int) :
    (if us / 1000000 < -2 ^ 63 ∨ 2 ^ 63 ≤ us / 1000000 ∨ us / 1000000 < p.first ∨
          p.last < us / 1000000 then Verdict.crashes
      else if InYears us then .fine else .refused).Of ((dated p us).mapError refuse) := by
  have := p.first_le
  have := p.le_last
  by_cases years : InYears us
  · obtain ⟨low, high⟩ := years
    rw [if_neg (by omega), if_pos ⟨low, high⟩, dated_ok_iff.mpr ⟨low, high⟩]
    exact ⟨us, rfl⟩
  · rw [dated, if_neg years]
    rw [InYears] at years
    split_ifs with crash a b
    · exact ⟨_, rfl⟩
    · exact ⟨_, rfl⟩
    · omega
    · omega
    · omega
    · omega
    · exact ⟨_, rfl⟩
    · omega

theorem of_time (p : Platform) (value : Value) :
    (timeVerdict p value).Of ((toFloat value >>= fromtimestamp p).mapError refuse) := by
  rw [timeVerdict, numberVerdict]
  rcases toFloat value with e | - | negative | t
  · cases e <;> exact ⟨_, rfl⟩
  · exact ⟨_, rfl⟩
  · exact ⟨_, rfl⟩
  · exact of_dated p (microseconds t)

theorem of_point (value : Value) : (pointVerdict c.platform value).Of (normalizePoint c value) := by
  by_cases pair : ∃ rawTimestamp rawValue, value = .list [rawTimestamp, rawValue]
  · obtain ⟨rawTimestamp, rawValue, rfl⟩ := pair
    refine of_bind (of_time c.platform rawTimestamp) fun us _ => ?_
    rw [← then_fine (numberVerdict rawValue)]
    exact of_bind (of_number rawValue) fun d _ => ⟨_, rfl⟩
  · have verdict : pointVerdict c.platform value = .refused := by
      rw [pointVerdict.eq_def]
      split
      · exact absurd ⟨_, _, rfl⟩ pair
      · rfl
    have refused : ∃ message, normalizePoint c value = .error (.provider message) := by
      rw [normalizePoint.eq_def]
      split
      · exact absurd ⟨_, _, rfl⟩ pair
      · exact ⟨_, rfl⟩
    rwa [verdict]

theorem of_series (group : String) (item : Fields Value) :
    (seriesVerdict c.platform item).Of (normalizeSeries c group item) := by
  rw [seriesVerdict, normalizeSeries]
  rcases item.lookup "metric" with - | metric
  · exact ⟨_, rfl⟩
  cases metric with
  | dict metric =>
    rcases item.lookup "values" with - | values
    · exact ⟨_, rfl⟩
    cases values with
    | list values =>
      dsimp only
      rw [← then_fine (first _)]
      exact of_bind (of_mapM of_point values) fun points _ => ⟨_, rfl⟩
    | _ => exact ⟨_, rfl⟩
  | _ => exact ⟨_, rfl⟩

theorem of_response (group : String) (payload : Value) :
    (responseVerdict c.platform payload).Of (normalizeResponse c group payload) := by
  rw [responseVerdict, normalizeResponse]
  rcases resultOf "query" "matrix" payload with (message | e) | result
  · exact ⟨_, rfl⟩
  · exact ⟨_, rfl⟩
  · exact of_mapM (of_series group) (objects result)

theorem handled_resultOf (what resultType : String) (payload : Fields Value) :
    Handled (resultOf what resultType (.dict payload)) := by
  intro e raised
  rw [resultOf] at raised
  split_ifs at raised
  · split at raised
    · split_ifs at raised
      · split at raised <;> cases raised
      · cases raised
    · cases raised
  · cases raised

/-- An answer with pods is read or refused exactly if it is an object. -/
theorem normalizePodResponse_handled_iff {serviceId : String} {config : PrometheusMetricsConfig}
    {payload : Value} :
    Handled (normalizePodResponse c serviceId config payload) ↔ ∃ d, payload = .dict d := by
  cases payload with
  | dict d =>
    refine ⟨fun _ => ⟨d, rfl⟩, fun _ e raised => ?_⟩
    rw [normalizePodResponse] at raised
    obtain raised | ⟨result, -, raised⟩ := Failing.bind_error.mp raised
    · exact handled_resultOf _ _ d e raised
    · cases raised
  | _ => exact ⟨fun handled => absurd rfl (handled .attributeError), fun ⟨d, same⟩ => by cases same⟩

end Prometheus

/-! ## All of them -/

/-- No answer escapes but those with a time that has no date or cannot be converted, a number that
overflows where an earlier one is not refused, or no object from Prometheus. -/
theorem answers_handled_iff (l : Logs.Builtins) (c : Builtins) (serviceId backendUrl group : String)
    (log : Logs.LokiLogConfig) (metrics : Prometheus.PrometheusMetricsConfig) (payload : Value) :
    (Loki.Handled (l.normalizeResponse serviceId log payload) ↔
      ∀ cursor ∈ Loki.cursors l payload, Loki.CursorDated l cursor) ∧
    (Handled (Tempo.normalizeResponse c backendUrl payload) ↔
      ∀ raw ∈ Tempo.spans payload,
        Tempo.TimeRead (Tempo.startOf raw) ∧ Tempo.TimeRead (Tempo.endOf raw)) ∧
    (Handled (Prometheus.normalizeResponse c group payload) ↔
      Prometheus.responseVerdict c.platform payload ≠ .crashes) ∧
    (Handled (Prometheus.normalizePodResponse c serviceId metrics payload) ↔
      ∃ d, payload = .dict d) :=
  ⟨Loki.normalizeResponse_handled_iff, Tempo.normalizeResponse_handled_iff,
    Prometheus.handled_iff_of (Prometheus.of_response group payload),
    Prometheus.normalizePodResponse_handled_iff⟩

/-! ## Answers that escape -/

def samplePlatform : Platform where
  first := -67768040609740800
  last := 67768036191676799
  first_le := by decide
  le_last := by decide

def sampleBuiltins : Builtins where
  text := plainText
  lower := id
  isoformat _ := ""
  platform := samplePlatform

/-- One span that starts at an infinite time. -/
def endlessSpan : Value :=
  .dict [("batches", .list [.dict [("scopeSpans", .list [.dict [("spans", .list [
    .dict [("startTimeUnixNano", .float (.inf false))]])]])]])]

/-- One sample at an infinite time. -/
def endlessSample : Value :=
  .dict [("status", .str "success"), ("data", .dict [("resultType", .str "matrix"),
    ("result", .list [.dict [("metric", .dict []), ("values",
      .list [.list [.float (.inf false), .str "1"]])]])])]

/-- One line whose cursor is a digit for `isdigit` and not for `int`. -/
def superscriptLine : Value :=
  .dict [("status", .str "success"), ("data", .dict [("resultType", .str "streams"),
    ("result", .list [.dict [("stream", .dict []), ("values",
      .list [.list [.str "²", .str "line"]])]])])]

def isdigit (ch : Char) : Bool := ch.isDigit || ch == '²'

theorem isdigit_of_isDigit (ch : Char) (h : ch.isDigit = true) : isdigit ch = true := by
  rw [isdigit, h]
  rfl

theorem isdigit_plain (ch : Char) (h : isdigit ch = true) : isSpace ch = false ∧ ch ≠ ':' := by
  rw [isdigit, Bool.or_eq_true, beq_iff_eq] at h
  rcases h with digit | rfl
  · exact Logs.isDigit_plain ch digit
  · decide

def datesOf (seconds _micros : Nat) : Option String :=
  if seconds ≤ 253402300799 then some "" else none

theorem datesOf_isSome (seconds micros : Nat) (h : seconds ≤ 253402300799) :
    (datesOf seconds micros).isSome := by
  rw [datesOf, if_pos h]
  rfl

def sampleLogs : Logs.Builtins where
  text := plainText
  isdigit := isdigit
  isdigit_of_isDigit := isdigit_of_isDigit
  isdigit_plain := isdigit_plain
  isoUtc _ := none
  isoUtc_isoUtc := Logs.isoUtc_absent
  isoNs _ := none
  isoNs_isoUtc := Logs.isoNs_absent
  utcIso := datesOf
  utcIso_isSome := datesOf_isSome

theorem answers_escape :
    ¬Loki.Handled (sampleLogs.normalizeResponse "s" {} superscriptLine) ∧
    ¬Handled (Tempo.normalizeResponse sampleBuiltins "" endlessSpan) ∧
    ¬Handled (Prometheus.normalizeResponse sampleBuiltins "cpu_usage" endlessSample) ∧
    ¬Handled (Prometheus.normalizeResponse sampleBuiltins "cpu_usage" (.list [])) ∧
    ¬Handled (Prometheus.normalizePodResponse sampleBuiltins "s" ⟨"ns", "namespace", "pod"⟩
      (.list [])) := by
  refine ⟨?_, ?_, ?_, ?_, ?_⟩
  · rw [Loki.normalizeResponse_handled_iff]
    intro dated
    obtain ⟨ns, read, -⟩ := dated "²" (by decide)
    have unread : intOfString "²" = none := by decide
    rw [unread] at read
    cases read
  · rw [Tempo.normalizeResponse_handled_iff]
    intro read
    exact (read [("startTimeUnixNano", .float (.inf false))] (List.mem_singleton.mpr rfl)).1 rfl
  · rw [Prometheus.handled_iff_of (Prometheus.of_response "cpu_usage" endlessSample)]
    exact fun handled => handled rfl
  · exact fun handled => handled .attributeError rfl
  · exact fun handled => handled .attributeError rfl

end Relayna.Studio.ProviderAnswers
