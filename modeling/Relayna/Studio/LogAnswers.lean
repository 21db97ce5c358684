import Mathlib.Data.List.DropRight
import Relayna.Foundation.Failing
import Relayna.Studio.Logs

/-!
# Loki's answers to a query for log lines

Loki answers with the newest lines from the start of the range on and before its end. Lines of one
timestamp stay in one order, whatever streams an answer arranges them in, so what is read from the
answer are those lines, sorted by the texts of their timestamps.

A query that goes on from a position does not see the lines at its timestamp: there is nothing to
skip.
-/
namespace Relayna.Studio.Logs

open Python Contracts Descending

/-- Nanoseconds since 1970. -/
structure Sample where
  timestamp : Nat
  message : String
  timestamp_lt : timestamp < 2 ^ 63

structure Line extends Sample where
  labels : Fields String

structure Stream where
  labels : Fields String
  values : List Sample

def Stream.lines (s : Stream) : List Line :=
  s.values.map fun sample => { sample with labels := s.labels }

def Stream.value (s : Stream) : Value :=
  .dict [("stream", .dict (s.labels.map fun label => (label.1, .str label.2))),
    ("values", .list (s.values.map fun sample =>
      .list [.str (toString sample.timestamp), .str sample.message]))]

/-- A payload with those streams. -/
structure Payload (v : Value) (streams : List Stream) : Prop where
  status : v.get "status" = some (.str "success")
  data : ∃ data, v.get "data" = some data ∧ data.get "resultType" = some (.str "streams") ∧
    data.get "result" = some (.list (streams.map Stream.value))

structure Loki where
  get : Request → Reply
  /-- How it reads a bound. -/
  read : String → Int
  read_timestamp : ∀ n : Nat, n < 2 ^ 63 → read (toString n) = n

/-- The lines of a range. -/
def Loki.within (loki : Loki) (start stop : Option String) (lines : List Line) : List Line :=
  lines.filter fun line =>
    decide (∀ s ∈ start, loki.read s ≤ line.timestamp) &&
      decide (∀ s ∈ stop, (line.timestamp : Int) < loki.read s)

def Newest (lines : List Line) : Prop := lines.Pairwise fun a b => b.timestamp ≤ a.timestamp

/-- The lines that match a query, in the order in which Loki has them. -/
structure Loki.Answers (loki : Loki) (query : String) (lines : List Line) : Prop where
  newest : Newest lines
  reply : ∀ request : Request, request.query = query → ∃ payload streams,
    loki.get request = .answered 200 (some payload) ∧ Payload payload streams ∧
      ∀ t, (streams.flatMap Stream.lines).filter (·.timestamp = t) =
        ((loki.within request.start request.stop lines).take request.limit).filter
          (·.timestamp = t)

/-- As the texts of the timestamps compare. -/
def byText : Line → Line → Ordering := compareOn fun line => toString line.timestamp

instance : Std.TransCmp byText :=
  inferInstanceAs (Std.TransCmp (compareOn fun line : Line => toString line.timestamp))

theorem byText_eq_iff {a b : Line} : byText a b = .eq ↔ a.timestamp = b.timestamp := by
  rw [byText, compareOn, Std.LawfulEqCmp.compare_eq_iff_eq]
  exact ⟨Names.toString_inj, congrArg toString⟩

theorem alike_byText (x : Line) (lines : List Line) :
    alike byText x lines = lines.filter (·.timestamp = x.timestamp) :=
  List.filter_congr fun _ _ => decide_eq_decide.mpr byText_eq_iff

namespace Builtins

variable (c : Builtins) (serviceId : String) (config : LokiLogConfig)

/-- The entry of a line. -/
def shown (line : Line) : StudioLogEntry where
  serviceId
  taskId := line.labels.lookup (config.taskIdLabel.getD "")
  correlationId := line.labels.lookup (config.correlationIdLabel.getD "")
  timestamp := (c.utcIso (line.timestamp / 1000000000)
    (line.timestamp % 1000000000 / 1000)).getD ""
  level := line.labels.lookup (config.levelLabel.getD "")
  source :=
    if config.sourceLabel.getD "" = "" then "unknown"
    else (line.labels.lookup (config.sourceLabel.getD "")).getD "unknown"
  message := line.message
  fields := { labels := line.labels, lokiCursor := toString line.timestamp }

theorem shown_injective : Function.Injective (c.shown serviceId config) := by
  intro a b same
  have fields := congrArg StudioLogEntry.fields same
  have message : a.message = b.message := congrArg StudioLogEntry.message same
  have labels : a.labels = b.labels := congrArg LogFields.labels fields
  have timestamp : a.timestamp = b.timestamp :=
    Names.toString_inj (congrArg LogFields.lokiCursor fields)
  obtain ⟨⟨t, m, h⟩, l⟩ := a
  obtain ⟨⟨t', m', h'⟩, l'⟩ := b
  subst message labels timestamp
  rfl

/-! ## Cursors -/

variable {c serviceId config}

theorem digits_toString (n : Nat) : c.digits (toString n) = true := by
  rw [digits, Bool.and_eq_true, List.all_eq_true]
  refine ⟨?_, fun ch hc => c.isdigit_of_isDigit ch (Names.isDigit_of_mem_toString hc)⟩
  rw [Nat.toString_eq_repr, decide_eq_true_eq]
  exact Nat.repr_ne_empty

theorem plain_of_digits {value : String} (h : c.digits value = true) :
    value ≠ "" ∧ strip value = value ∧ ':' ∉ value.toList := by
  rw [digits, Bool.and_eq_true, decide_eq_true_eq, List.all_eq_true] at h
  have plain {ch : Char} (hc : ch ∈ value.toList) := c.isdigit_plain ch (h.2 ch hc)
  refine ⟨h.1, ?_, fun colon => (plain colon).2 rfl⟩
  rw [strip, Names.stripChars_of_forall fun ch hc => (plain hc).1, String.ofList_toList]

/-- A text that begins and ends with other characters than spaces. -/
theorem strip_encode {cursor : String} (h : c.digits cursor = true) (skip : Nat) :
    strip (encodePageCursor cursor skip) = encodePageCursor cursor skip := by
  unfold encodePageCursor
  split_ifs
  · exact (plain_of_digits h).2.1
  · have kept : ∀ ch ∈ (lokiCursorPrefix ++ cursor ++ ":" ++ toString skip).toList,
        isSpace ch = false := by
      have notSpace {text : String} (h : text.toList.all (!isSpace ·) = true) {ch : Char}
          (hc : ch ∈ text.toList) : isSpace ch = false := by
        simpa using List.all_eq_true.mp h ch hc
      have digit {text : String} (h : c.digits text = true) {ch : Char} (hc : ch ∈ text.toList) :
          isSpace ch = false := by
        rw [digits, Bool.and_eq_true, List.all_eq_true] at h
        exact (c.isdigit_plain ch (h.2 ch hc)).1
      intro ch hc
      simp only [String.toList_append, List.mem_append] at hc
      rcases hc with ((hc | hc) | hc) | hc
      · exact notSpace (by decide) hc
      · exact digit h hc
      · exact notSpace (by decide) hc
      · exact digit (digits_toString skip) hc
    rw [strip, Names.stripChars_of_forall kept, String.ofList_toList]

theorem parse_encode {cursor : String} (h : c.digits cursor = true) {skip : Nat}
    (small : skip < 10 ^ 4300) :
    c.parsePageCursor (encodePageCursor cursor skip) = .ok (cursor, skip) := by
  obtain ⟨-, stripped, plain⟩ := plain_of_digits h
  rw [parsePageCursor, strip_encode h]
  by_cases none_left : skip = 0
  · have other : lokiCursorPrefix.toList.isPrefixOf cursor.toList = false := by
      rw [Bool.eq_false_iff, ne_eq, List.isPrefixOf_iff_prefix]
      intro start
      exact plain (start.subset (by decide))
    rw [encodePageCursor, if_pos none_left, other, if_neg (by simp), parseCursorTimestamp, stripped,
      if_pos h, none_left]
    rfl
  · have split : (lokiCursorPrefix ++ cursor ++ ":" ++ toString skip).toList =
        lokiCursorPrefix.toList ++ (cursor.toList ++ ':' :: (toString skip).toList) := by
      simp
    rw [encodePageCursor, if_neg none_left, split, if_pos, List.drop_left]
    · have rest : (cursor.toList ++ ':' :: (toString skip).toList).dropWhile (· ≠ ':') =
          ':' :: (toString skip).toList := by
        rw [List.dropWhile_append_of_pos fun ch hc => ?_]
        · simp
        · simp only [ne_eq, decide_eq_true_eq]
          rintro rfl
          exact plain hc
      dsimp only
      rw [Names.takeWhile_colon plain, rest]
      dsimp only
      rw [String.ofList_toList, String.ofList_toList, h, digits_toString, Bool.and_self, if_pos rfl,
        Names.intOfString_toString small]
      rfl
    · exact List.isPrefixOf_iff_prefix.mpr (List.prefix_append _ _)

/-- A time is the position that it is read as. -/
theorem parse_time {value iso : String} (h : c.isoUtc value = some iso) :
    c.parsePageCursor iso = .ok (iso, 0) := by
  obtain ⟨again, stripped, colon, number⟩ := c.isoUtc_isoUtc value iso h
  have other : lokiCursorPrefix.toList.isPrefixOf iso.toList = false := by
    rw [Bool.eq_false_iff, ne_eq, List.isPrefixOf_iff_prefix]
    rintro ⟨rest, same⟩
    rw [← same] at number
    exact absurd number (by simp [lokiCursorPrefix, Char.isDigit])
  have text : c.digits iso = false := by
    rw [Bool.eq_false_iff]
    exact fun digits => (plain_of_digits digits).2.2 colon
  rw [parsePageCursor, stripped, other, if_neg (by simp), parseCursorTimestamp, stripped, text,
    if_neg (by simp), again]
  rfl

theorem parse_encode_of_parse {value cursor : String} {skip : Nat}
    (h : c.parsePageCursor value = .ok (cursor, skip)) :
    c.parsePageCursor (encodePageCursor cursor skip) = .ok (cursor, skip) := by
  unfold parsePageCursor at h
  dsimp only at h
  split at h
  · split at h
    · cases h
    · split_ifs at h with both
      rw [Bool.and_eq_true] at both
      split at h
      · next skipped read =>
        obtain ⟨rfl, rfl⟩ := Prod.mk.inj (Except.ok.inj h)
        exact parse_encode both.1 (Names.toNat_lt_of_intOfString read)
      · cases h
  · obtain ⟨timestamp, read, same⟩ := Failing.map_ok.mp h
    obtain ⟨rfl, rfl⟩ := Prod.mk.inj same
    unfold parseCursorTimestamp at read
    split at read
    · next digits =>
      obtain rfl := Except.ok.inj read
      exact parse_encode digits (Nat.pow_pos (by decide))
    · split at read
      · next iso found =>
        obtain rfl := Except.ok.inj read
        exact parse_time found
      · cases read

theorem normalize_encode {cursor : String} (h : c.digits cursor = true) {skip : Nat}
    (small : skip < 10 ^ 4300) :
    c.normalizeBefore (encodePageCursor cursor skip) =
      .ok (some (encodePageCursor cursor skip)) := by
  have nonempty : encodePageCursor cursor skip ≠ "" := by
    unfold encodePageCursor
    split_ifs
    · exact (plain_of_digits h).1
    · intro empty
      have := congrArg String.toList empty
      simp [lokiCursorPrefix] at this
  rw [normalizeBefore, strip_encode h, if_neg nonempty, parse_encode h small]
  rfl

/-! ## What is read from an answer -/

theorem lt_of_timestamp {n : Nat} (h : n < 2 ^ 63) : n < 10 ^ 4300 := by
  have least {k : Nat} (hk : 63 ≤ k) : 2 ^ 63 ≤ 10 ^ k :=
    (Nat.pow_le_pow_left (by decide : 2 ≤ 10) 63).trans (Nat.pow_le_pow_right (by decide) hk)
  exact h.trans_le (least (by decide))

theorem normalizeValue_sample (sample : Sample) (labels : Fields String) :
    c.normalizeValue serviceId config labels
      (.list [.str (toString sample.timestamp), .str sample.message]) =
      .ok (some (c.shown serviceId config { sample with labels })) := by
  have number := digits_toString (c := c) sample.timestamp
  have known : sample.timestamp / 1000000000 ≤ 253402300799 := by
    have := sample.timestamp_lt
    omega
  obtain ⟨iso, made⟩ := Option.isSome_iff_exists.mp
    (c.utcIso_isSome _ (sample.timestamp % 1000000000 / 1000) known)
  have read : c.lokiNsToIso (toString sample.timestamp) = .ok iso := by
    rw [lokiNsToIso, Names.intOfString_toString (lt_of_timestamp sample.timestamp_lt)]
    dsimp only
    rw [Int.toNat_natCast, made]
  rw [normalizeValue, c.text.str_str, c.text.str_str, (plain_of_digits number).2.1, if_pos number,
    read, shown, made]
  rfl

theorem normalizeStream_value (s : Stream) :
    c.normalizeStream serviceId config s.value =
      .ok (s.lines.map (c.shown serviceId config)) := by
  have labels : (s.labels.map fun label => (label.1, Value.str label.2)).map
      (fun label => (label.1, c.text.str label.2)) = s.labels := by
    rw [List.map_map]
    refine (List.map_congr_left fun label _ => ?_).trans (List.map_id _)
    dsimp only [Function.comp]
    rw [c.text.str_str]
    rfl
  have stream : s.value.get "stream" =
      some (.dict (s.labels.map fun label => (label.1, .str label.2))) := rfl
  have values : s.value.get "values" = some (.list (s.values.map fun sample =>
      .list [.str (toString sample.timestamp), .str sample.message])) := rfl
  rw [normalizeStream, stream, values]
  dsimp only
  have entries : s.values.mapM (c.normalizeValue serviceId config s.labels ∘ fun sample =>
      .list [.str (toString sample.timestamp), .str sample.message]) =
      .ok (s.values.map fun sample =>
        some (c.shown serviceId config { sample with labels := s.labels })) :=
    Failing.mapM_eq_map fun sample _ => normalizeValue_sample sample s.labels
  rw [labels, List.mapM_map, entries]
  refine congrArg Except.ok ?_
  dsimp only
  rw [Stream.lines, List.map_map]
  change List.filterMap id (s.values.map fun sample =>
    some (c.shown serviceId config { sample with labels := s.labels })) = _
  rw [List.filterMap_map]
  exact congrFun List.filterMap_eq_map' _

theorem sort_shown (lines : List Line) :
    sort byCursor (lines.map (c.shown serviceId config)) =
      (sort byText lines).map (c.shown serviceId config) :=
  (List.map_insertionSort _ _ (c.shown serviceId config) _ fun _ _ _ _ => Iff.rfl).symm

theorem normalizeResponse_payload {payload : Value} {streams : List Stream}
    (h : Payload payload streams) :
    c.normalizeResponse serviceId config payload =
      .ok ((sort byText (streams.flatMap Stream.lines)).map (c.shown serviceId config)) := by
  obtain ⟨data, found, kind, result⟩ := h.data
  have entries : streams.mapM (c.normalizeStream serviceId config ∘ Stream.value) =
      .ok (streams.map fun s => s.lines.map (c.shown serviceId config)) :=
    Failing.mapM_eq_map fun s _ => normalizeStream_value s
  rw [normalizeResponse, h.status, found, Option.getD_some]
  dsimp only
  rw [kind, result, if_pos (by simp [isText]), if_pos (by simp [isText])]
  dsimp only
  rw [List.mapM_map, entries, ← sort_shown, List.flatMap_def, List.map_flatten, List.map_map]
  rfl

/-! ## One page -/

theorem skip_none {cursor : String} {entries : List StudioLogEntry}
    (other : ∀ e ∈ entries, e.fields.lokiCursor ≠ cursor) (skip : Nat) :
    skipBoundaryEntries cursor skip entries = entries := by
  induction entries with
  | nil => cases skip <;> rfl
  | cons e entries ih =>
    cases skip with
    | zero => rfl
    | succ skip =>
      rw [skipBoundaryEntries, if_neg (other e List.mem_cons_self),
        ih fun e' he' => other e' (List.mem_cons_of_mem _ he')]

theorem page_last {lines : List Line} {limit : Nat} (few : lines.length ≤ limit) :
    page limit (lines.map (c.shown serviceId config)) =
      { count := lines.length
        items := lines.map (c.shown serviceId config)
        nextCursor := none } := by
  have all : (lines.map (c.shown serviceId config)).take limit =
      lines.map (c.shown serviceId config) := List.take_of_length_le (by simpa using few)
  rw [page, all, if_neg (by simpa using few), List.length_map]

variable (serviceId config) in
/-- The position after a page that is not the last. -/
theorem page_more (front : List Line) (last : Line) {hidden : List Line}
    (some_hidden : hidden ≠ []) :
    ∃ skip ≤ front.length + 1, page (front.length + 1)
        ((front ++ last :: hidden).map (c.shown serviceId config)) =
      { count := front.length + 1
        items := (front ++ [last]).map (c.shown serviceId config)
        nextCursor := some (encodePageCursor (toString last.timestamp) skip) } ∧
      ((∀ line ∈ hidden, line.timestamp ≠ last.timestamp) → skip = 0) := by
  have split : (front ++ last :: hidden).map (c.shown serviceId config) =
      (front ++ [last]).map (c.shown serviceId config) ++
        hidden.map (c.shown serviceId config) := by
    simp
  have length : ((front ++ [last]).map (c.shown serviceId config)).length = front.length + 1 := by
    simp
  have items : ((front ++ last :: hidden).map (c.shown serviceId config)).take (front.length + 1) =
      (front ++ [last]).map (c.shown serviceId config) := by
    rw [split, ← length, List.take_left]
  have rest : ((front ++ last :: hidden).map (c.shown serviceId config)).drop (front.length + 1) =
      hidden.map (c.shown serviceId config) := by
    rw [split, ← length, List.drop_left]
  have more : front.length + 1 <
      ((front ++ last :: hidden).map (c.shown serviceId config)).length := by
    have := List.length_pos_of_ne_nil some_hidden
    simp
    omega
  have final : ((front ++ [last]).map (c.shown serviceId config)).getLast? =
      some (c.shown serviceId config last) := by
    simp
  refine ⟨?skip, ?_, ?page, ?_⟩
  case page =>
    rw [page, items, rest, if_pos more, final, Option.map_some, length]
    rfl
  · split_ifs
    · exact (List.length_filter_le _ _).trans length.le
    · exact Nat.zero_le _
  · intro apart
    rw [if_neg]
    rw [List.any_map, List.any_eq_true]
    rintro ⟨line, hl, same⟩
    exact apart line hl (Names.toString_inj (of_decide_eq_true same))

/-! ## One query -/

variable {loki : Loki} {requestQuery : String} {lines : List Line} {query : StudioLogQuery c}
  {skip : Nat} {rest : List Line}

/-- A bound of a query, as Loki takes it. -/
def boundText (c : Builtins) (value : Option String) : Option String :=
  match c.bound value with
  | .ok text => text
  | .error _ => none

theorem bound_ok {value : Option String}
    (normal : ∀ t ∈ value, ∃ raw, c.parseCursorTimestamp raw = .ok t) :
    c.bound value = .ok (c.boundText value) := by
  obtain ⟨text, done⟩ : ∃ text, c.bound value = .ok text := by
    cases value with
    | none => exact ⟨none, rfl⟩
    | some t =>
      obtain ⟨raw, made⟩ := normal t rfl
      have known : ∃ ns, c.isoToLokiNs t = .ok ns := by
        unfold isoToLokiNs
        split_ifs with number
        · exact ⟨t, rfl⟩
        · rw [parseCursorTimestamp] at made
          split_ifs at made with digits
          · cases made
            exact absurd digits number
          · split at made
            · next iso found =>
              cases made
              obtain ⟨ns, hns⟩ := Option.isSome_iff_exists.mp (c.isoNs_isoUtc _ _ found)
              rw [hns]
              exact ⟨ns, rfl⟩
            · cases made
      obtain ⟨ns, hns⟩ := known
      exact ⟨some ns, by rw [bound, hns]; rfl⟩
  rw [boundText, done]

theorem bound_timestamp (n : Nat) : c.bound (some (toString n)) = .ok (some (toString n)) := by
  rw [bound, isoToLokiNs, if_pos (digits_toString n)]
  rfl

/-- The lines that are left for a query, and how many lines the position says to skip. -/
inductive Placed (loki : Loki) (lines : List Line) (query : StudioLogQuery c) :
    Nat → List Line → Prop
  | first : query.before = none →
      Placed loki lines query 0
        (loki.within (c.boundText query.fromTime) (c.boundText query.toTime) lines)
  | after {timestamp skip : Nat} : timestamp < 2 ^ 63 → skip ≤ 200 →
      query.before = some (encodePageCursor (toString timestamp) skip) →
      Placed loki lines query skip
        (loki.within (c.boundText query.fromTime) (some (toString timestamp)) lines)

variable (serviceId config) in
theorem answer_entries (answers : loki.Answers requestQuery lines) (request : Request)
    (asked : request.query = requestQuery) :
    ∃ payload, payloadOf serviceId (loki.get request) = .ok payload ∧
      c.normalizeResponse serviceId config payload =
        .ok ((sort byText ((loki.within request.start request.stop lines).take request.limit)).map
          (c.shown serviceId config)) := by
  obtain ⟨payload, streams, replied, holds, order⟩ := answers.reply request asked
  refine ⟨payload, by rw [replied]; rfl, ?_⟩
  rw [normalizeResponse_payload holds, sort_eq_of_alike fun x => ?_]
  rw [alike_byText, alike_byText, order]

theorem lt_of_mem_within {start : Option String} {n : Nat} (small : n < 2 ^ 63) {line : Line}
    (h : line ∈ loki.within start (some (toString n)) lines) : line.timestamp < n := by
  have inside := (List.mem_filter.mp h).2
  rw [Bool.and_eq_true, decide_eq_true_eq, decide_eq_true_eq] at inside
  have := inside.2 _ rfl
  rw [loki.read_timestamp n small] at this
  exact Int.ofNat_lt.mp this

theorem queryLogs_placed (answers : loki.Answers requestQuery lines)
    (placed : Placed loki lines query skip rest) :
    c.queryLogs serviceId config (.ok requestQuery) loki.get query =
      .ok (page query.limit ((sort byText (rest.take (query.limit + skip + 1))).map
        (c.shown serviceId config))) := by
  have start := bound_ok query.fromTime_normal
  have stop := bound_ok query.toTime_normal
  cases placed with
  | first before =>
    obtain ⟨payload, replied, read⟩ := answer_entries (c := c) serviceId config answers
      ⟨requestQuery, query.limit + 0 + 1, c.boundText query.fromTime, c.boundText query.toTime⟩ rfl
    have unbounded : c.bound none = .ok none := rfl
    rw [queryLogs, before]
    simp only [position, bind, Except.bind, start, stop, unbounded, Option.none_or, replied, read,
      pure, Except.pure]
  | @after timestamp skip small few before =>
    have parsed : c.parsePageCursor (encodePageCursor (toString timestamp) skip) =
        .ok (toString timestamp, skip) :=
      parse_encode (digits_toString _) (lt_of_timestamp (by omega))
    obtain ⟨payload, replied, read⟩ := answer_entries (c := c) serviceId config answers
      ⟨requestQuery, query.limit + skip + 1, c.boundText query.fromTime,
        some (toString timestamp)⟩ rfl
    rw [queryLogs, before]
    simp only [position, parsed, Except.map, bind, Except.bind, start, stop, bound_timestamp,
      Option.some_or, replied, read, pure, Except.pure]
    rw [skip_none]
    intro e he
    obtain ⟨line, hl, rfl⟩ := List.mem_map.mp he
    have := lt_of_mem_within small (List.mem_of_mem_take (mem_sort.mp hl))
    exact fun same => this.ne (Names.toString_inj same)

end Builtins

end Relayna.Studio.Logs
