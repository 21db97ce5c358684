import Mathlib.Data.List.Pairwise
import Relayna.Foundation.Names
import Relayna.Foundation.Texts
import Relayna.Foundation.Walks
import Relayna.Studio.TaskPages
import Relayna.Studio.TaskSearchIndex

/-!
# The two stores of task search

Both stores sort what they find downwards and their pages make up the list, so they agree when they
find the same documents and sort them alike. What is stored in UTC reads the same to both; the
bounds of a query are read as they were given, and either store may fail to read one.
-/
namespace Relayna.Studio.TaskPages

open Python Contracts Search TaskSearch

/-! ## What Redis holds -/

section Stored

variable {z : Calendar}

theorem view_foldl (g : Redis) (id : Id) (commands : List Command) :
    (commands.foldl (·.exec id ·) g).view id = (g.view id).run commands := by
  induction commands generalizing g with
  | nil => rfl
  | cons command commands ih =>
    rw [List.foldl_cons, ih, view_exec_self]
    rfl

theorem view_foldl_of_ne (g : Redis) {id other : Id} (ne : other ≠ id) (commands : List Command) :
    (commands.foldl (·.exec id ·) g).view other = g.view other := by
  induction commands generalizing g with
  | nil => rfl
  | cons command commands ih => rw [List.foldl_cons, ih, view_exec_of_ne _ ne]

theorem nodup_foldl {g : Redis} (h : ∀ key, (g.sets key).Nodup) (id : Id)
    (commands : List Command) : ∀ key, ((commands.foldl (·.exec id ·) g).sets key).Nodup := by
  induction commands generalizing g with
  | nil => exact h
  | cons command commands ih => exact ih (nodup_exec h id command)

/-- After all its commands, the document is the one that was set. -/
theorem run_set (v : View) (previous : Option TaskSearchDocument) (d : TaskSearchDocument)
    (times : List Int) : (v.run (setTaskDocument previous d times)).doc = some d := by
  rw [setTaskDocument, run_append]
  exact (run_sadd _ _).1

variable {docs : List TaskSearchDocument}

theorem stored_settled (distinct : (docs.map TaskSearchDocument.id).Nodup) :
    (∀ id, ((stored docs).view id).Settled z id) ∧
      (∀ key, ((stored docs).sets key).Nodup) ∧
      ∀ id, (stored docs).docs id = Keyed.get? TaskSearchDocument.id id docs := by
  induction docs using List.reverseRecOn with
  | nil =>
    have empty := inv_empty (z := z)
    exact ⟨fun id => empty.settled id fun _ h => absurd h List.not_mem_nil, empty.nodup,
      fun _ => rfl⟩
  | append_singleton docs d ih =>
    rw [List.map_append, List.nodup_append] at distinct
    obtain ⟨before, -, apart⟩ := distinct
    obtain ⟨settled, nodup, held⟩ := ih before
    have next : stored (docs ++ [d]) = store (stored docs) d := by
      rw [stored, List.foldl_append]
      rfl
    have absent : (stored docs).docs d.id = none := by
      rw [held, Keyed.get?_eq_none]
      exact fun mem => apart _ mem _ (List.mem_singleton_self _) rfl
    have mine : (store (stored docs) d).view d.id =
        ((stored docs).view d.id).run (setTaskDocument ((stored docs).view d.id).doc d []) :=
      view_foldl _ _ _
    have others {id : Id} (ne : id ≠ d.id) :
        (store (stored docs) d).view id = (stored docs).view id := view_foldl_of_ne _ ne _
    rw [next]
    refine ⟨fun id => ?_, nodup_foldl nodup _ _, fun id => ?_⟩
    · by_cases same : id = d.id
      · subst same
        rw [mine]
        refine (settled d.id).set rfl (fun o ho => ?_) fun t h => absurd h List.not_mem_nil
        rw [show ((stored docs).view d.id).doc = none from absent] at ho
        cases ho
      · rw [others same]
        exact settled id
    · rw [Keyed.get?_append]
      by_cases same : id = d.id
      · subst same
        rw [← held, absent]
        refine (congrArg View.doc mine).trans ((run_set _ _ _ _).trans ?_)
        simp [Keyed.get?]
      · rw [← held]
        refine (congrArg View.doc (others same)).trans ?_
        have other : d.id ≠ id := Ne.symm same
        simp [Keyed.get?, other, Redis.view]

/-- The candidates of a query are the documents that have the values it asks for. -/
theorem mem_candidates_stored (z : Calendar) (distinct : (docs.map TaskSearchDocument.id).Nodup)
    {q : Query}
    {d : TaskSearchDocument} :
    d ∈ (candidates (stored docs) q).filterMap (stored docs).docs ↔
      d ∈ docs ∧ ∀ b ∈ q.filters, d.field b.1 = some b.2 := by
  obtain ⟨settled, -, held⟩ := stored_settled (z := z) distinct
  have asked (id : Id) : id ∈ candidates (stored docs) q ↔
      ∃ d ∈ (stored docs).docs id, ∀ b ∈ q.filters, d.field b.1 = some b.2 :=
    mem_candidates (settled id)
  rw [List.mem_filterMap]
  constructor
  · rintro ⟨id, hid, found⟩
    obtain ⟨d', found', fields⟩ := (asked id).mp hid
    obtain rfl : d' = d := Option.some.inj (Eq.trans (Eq.symm found') found)
    exact ⟨Keyed.mem_of_get? ((held id).symm.trans found), fields⟩
  · rintro ⟨mem, fields⟩
    have found : (stored docs).docs d.id = some d :=
      (held d.id).trans (Keyed.get?_of_mem distinct mem)
    exact ⟨d.id, (asked d.id).mpr ⟨d, found, fields⟩, found⟩

theorem nodup_candidates_stored (z : Calendar)
    (distinct : (docs.map TaskSearchDocument.id).Nodup) (q : Query) :
    (((candidates (stored docs) q).filterMap (stored docs).docs).map
      TaskSearchDocument.id).Nodup := by
  obtain ⟨settled, nodup, -⟩ := stored_settled (z := z) distinct
  rw [List.map_filterMap]
  refine List.Nodup.filterMap (fun id other k a b => ?_) (nodup_candidates nodup q)
  obtain ⟨d, hd, rfl⟩ := Option.map_eq_some_iff.mp a
  obtain ⟨e, he, same⟩ := Option.map_eq_some_iff.mp b
  exact ((settled id).named d hd).symm.trans (same.symm.trans ((settled other).named e he))

end Stored

/-! ## Times -/

section Times

variable {z : Calendar}

/-- The time that a text shows to the database, of a text that can be read. -/
def utcInstant (z : Calendar) (value : Option String) : Option Int :=
  (dt z value).join.map Subtype.val

theorem utcInstant_eq {value : Option String} {t : Option (Instant z)}
    (h : dt z value = some t) : utcInstant z value = t.map Subtype.val := by
  rw [utcInstant, h]
  rfl

/-- The database reads what is not a time as the search does. -/
theorem dt_map (value : Option String) : (dt z value).map (·.map Subtype.val) =
    z.parse (fun t => (inUtc z t).map Subtype.val) value := by
  unfold dt Calendar.parse
  cases (value.map strip).filter (· ≠ "") with
  | none => rfl
  | some text =>
    cases shown : z.fromIsoformat (Calendar.offsetOf text) with
    | none => simp [shown]
    | some t => simp [shown, Function.comp_def]

/-- What the indexer stores reads the same in the database. -/
theorem dt_isoformat {t : Option Int} {text : Option String} (h : z.isoformat t = some text) :
    ∃ u, dt z text = some u ∧ u.map Subtype.val = t := by
  have read : z.parse (fun t => (inUtc z t).map Subtype.val) text = some t := by
    refine Calendar.parse_isoformat h fun s hs => ?_
    obtain rfl : t = some s := hs
    obtain ⟨body, shown, -⟩ := Option.map_eq_some_iff.mp h
    simp [inUtc, shown]
  rw [← dt_map] at read
  exact Option.map_eq_some_iff.mp read

theorem isoformat_isoOrNone (t : Option (Instant z)) :
    z.isoformat (t.map Subtype.val) = some (isoOrNone z t) := by
  cases t with
  | none => rfl
  | some s => simp [isoOrNone, Calendar.isoformat, Option.map_eq_some_iff]

theorem dt_isoOrNone (t : Option (Instant z)) : dt z (isoOrNone z t) = some t := by
  obtain ⟨u, read, same⟩ := dt_isoformat (isoformat_isoOrNone t)
  rw [read, Option.map_injective Subtype.val_injective same]

/-- Where a text stands for a missing time, it is empty. -/
theorem dt_shown (t : Option (Instant z)) : dt z (some ((isoOrNone z t).getD "")) = some t := by
  cases t with
  | none => rfl
  | some s => exact dt_isoOrNone (some s)

theorem dt_of_bound {value : Option String} {t : Option (Instant z)}
    (h : bound z value = some t) : dt z value = some t := by
  unfold bound at h
  split at h
  · rename_i absent
    obtain rfl := Option.some.inj h
    cases value with
    | none => rfl
    | some text =>
      have empty : text = "" := by simpa [Option.filter] using absent
      rw [empty]
      rfl
  · rename_i text given
    obtain ⟨rfl, -⟩ := Option.filter_eq_some_iff.mp given
    obtain ⟨u, read, h⟩ := Option.bind_eq_some_iff.mp h
    obtain ⟨s, rfl, rfl⟩ := Option.map_eq_some_iff.mp h
    exact read

end Times

/-! ## What a query asks for -/

/-- The document has the values that the query names. -/
def Asked (q : Query) (d : TaskSearchDocument) : Prop :=
  ∀ b ∈ q.filters, d.field b.1 = some b.2

/-- The document lies in the range of the query, whose bounds are read so. -/
def Within (z : Calendar) (read : Option String → Option Int) (q : Query)
    (d : TaskSearchDocument) : Prop :=
  withinRange (utcInstant z d.lastSeenAt) (read q.fromTimestamp) (read q.toTimestamp) = true

section Documents

variable {z : Calendar} {now : Int} {docs : TaskDocuments z now} {q : Query}
  {d : TaskSearchDocument} {collation : Collation}

theorem ne_of_mem_filters {b : Field × String} (h : b ∈ q.filters) : b.2 ≠ "" := by
  obtain ⟨field, -, kept⟩ := List.mem_filterMap.mp h
  obtain ⟨value, normal, rfl⟩ := Option.map_eq_some_iff.mp kept
  exact of_decide_eq_true (Option.filter_eq_some_iff.mp normal).2

theorem instant_lastSeen (hd : d ∈ docs.docs) :
    z.parseDatetime d.lastSeenAt = some (utcInstant z d.lastSeenAt) := by
  obtain ⟨t, written⟩ := docs.lastSeen d hd
  obtain ⟨u, read, same⟩ := dt_isoformat written
  rw [Calendar.parseDatetime_isoformat written, utcInstant_eq read, same]

theorem not_expired (hd : d ∈ docs.docs) : ∃ t, z.parseDatetime d.expiresAt = some t ∧
    utcInstant z d.expiresAt = t ∧ ∀ s ∈ t, now < s := by
  obtain ⟨t, written, later⟩ := docs.unexpired d hd
  obtain ⟨u, read, same⟩ := dt_isoformat written
  exact ⟨t, Calendar.parseDatetime_isoformat written, (utcInstant_eq read).trans same, later⟩

theorem keeps_iff (hd : d ∈ docs.docs) : q.Keeps z now d = true ↔ Within z z.instant q d := by
  obtain ⟨t, read, -, later⟩ := not_expired hd
  have live : (z.instant d.expiresAt).any (· ≤ now) = false := by
    rw [Calendar.instant_eq read]
    cases t with
    | none => rfl
    | some s => simpa using later s rfl
  rw [Query.Keeps, live, Bool.not_false, Bool.true_and, Calendar.instant_eq (instant_lastSeen hd)]
  rfl

/-- What Redis pages when it can read the bounds. -/
theorem filtered_eq (read : q.Readable z) : filtered z (stored docs.docs) now q =
    some (Descending.sort (byLastSeen z)
      (((candidates (stored docs.docs) q).filterMap (stored docs.docs).docs).filter
        (q.Keeps z now))) := by
  obtain ⟨-, -, held⟩ := stored_settled (z := z) docs.distinct
  have dated : ∀ id, ∀ d ∈ (stored docs.docs).docs id,
      (z.parseDatetime d.lastSeenAt).isSome = true ∧
        (z.parseDatetime d.expiresAt).isSome = true := by
    intro id d found
    have hd : d ∈ docs.docs := Keyed.mem_of_get? ((held id).symm.trans found)
    obtain ⟨t, read, -⟩ := not_expired hd
    exact ⟨Option.isSome_of_mem (instant_lastSeen hd), Option.isSome_of_mem read⟩
  rw [filtered, loaded_eq read dated, Option.map_some]

/-- The documents that Redis pages. -/
def foundItems (docs : TaskDocuments z now) (q : Query) : List TaskSearchDocument :=
  Descending.sort (byLastSeen z)
    (((candidates (stored docs.docs) q).filterMap (stored docs.docs).docs).filter (q.Keeps z now))

theorem mem_foundItems : d ∈ foundItems docs q ↔
    d ∈ docs.docs ∧ Asked q d ∧ Within z z.instant q d := by
  rw [foundItems, Descending.mem_sort, List.mem_filter, mem_candidates_stored z docs.distinct,
    and_assoc]
  exact and_congr_right fun hd => and_congr_right fun _ => keeps_iff hd

theorem withinRange_eq (value start stop : Option Int) : withinRange value start stop =
    (start.all (fun s => value.any (s ≤ ·)) && stop.all (fun s => value.any (· ≤ s))) := by
  cases value <;> cases start <;> cases stop <;> rfl

/-- The row of a document whose times can be converted. -/
def rowOf (z : Calendar) (d : TaskSearchDocument) : TaskRow z where
  serviceId := d.serviceId
  taskId := d.taskId
  serviceName := d.serviceName
  environment := d.environment
  correlationId := d.correlationId
  status := d.status
  stage := d.stage
  firstSeenAt := (dt z d.firstSeenAt).join
  lastSeenAt := (dt z d.lastSeenAt).join
  latestEventType := d.latestEventType
  latestEventAt := (dt z d.latestEventAt).join
  latestIngestedAt := (dt z d.latestIngestedAt).join
  detailPath := d.detailPath
  expiresAt := (dt z d.expiresAt).join

theorem taskValues_eq {row : TaskRow z} (h : taskValues z d = some row) : row = rowOf z d := by
  simp only [taskValues, Option.bind_eq_bind, Option.pure_def, Option.bind_eq_some_iff,
    Option.some.injEq] at h
  obtain ⟨first, hf, last, hl, event, he, ingested, hi, expires, hx, rfl⟩ := h
  simp only [rowOf, hf, hl, he, hi, hx, Option.join_some]

theorem passes_rowOf (hd : d ∈ docs.docs) (start stop : Option (Instant z)) :
    passes z now q.filters start stop (rowOf z d) = true ↔ Asked q d ∧
      withinRange (utcInstant z d.lastSeenAt) (start.map Subtype.val) (stop.map Subtype.val) =
        true := by
  have live : (rowOf z d).expiresAt.all (now < ·.1) = true := by
    obtain ⟨t, -, same, later⟩ := not_expired hd
    refine (Option.all_eq_true _ _).mpr fun s hs => decide_eq_true (later s.1 ?_)
    rw [← same, utcInstant]
    exact congrArg (Option.map Subtype.val) hs
  have columns : (q.filters.all fun f => (rowOf z d).column f.1 = some f.2) = true ↔
      Asked q d := by
    rw [List.all_eq_true]
    refine forall₂_congr fun f hf => ?_
    rw [decide_eq_true_eq]
    have nonempty := ne_of_mem_filters hf
    obtain ⟨field, value⟩ := f
    cases field <;> simp [TaskRow.column, TaskSearchDocument.field, rowOf,
      Option.filter_eq_some_iff] <;> grind
  have range : withinRange (utcInstant z d.lastSeenAt) (start.map Subtype.val)
      (stop.map Subtype.val) = (start.all (fun s => (rowOf z d).lastSeenAt.any (s.1 ≤ ·.1)) &&
        stop.all (fun s => (rowOf z d).lastSeenAt.any (·.1 ≤ s.1))) := by
    rw [withinRange_eq, utcInstant]
    show _ = (start.all (fun s => (dt z d.lastSeenAt).join.any (s.1 ≤ ·.1)) &&
      stop.all (fun s => (dt z d.lastSeenAt).join.any (·.1 ≤ s.1)))
    cases start <;> cases stop <;> cases (dt z d.lastSeenAt).join <;> rfl
  rw [passes, Bool.and_assoc, Bool.and_assoc, Bool.and_eq_true, Bool.and_eq_true, columns, range]
  exact ⟨fun h => h.2, fun h => ⟨live, h⟩⟩

/-! ## The order of the documents -/

instance : Std.TransCmp (byLastSeen z) :=
  inferInstanceAs (Std.TransCmp (compareLex (compareOn fun d : TaskSearchDocument =>
    (z.instant d.lastSeenAt).getD z.least)
      (compareLex (compareOn fun d => d.serviceId) (compareOn fun d => d.taskId))))

theorem Collation.transCmp (collation : Collation) (text : Boundary → String) :
    Std.TransCmp fun x y => collation.cmp (text x) (text y) :=
  have := collation.trans
  { eq_swap := Std.OrientedCmp.eq_swap
    isLE_trans := Std.TransCmp.isLE_trans }

instance : Std.TransCmp (cmpTuple collation) :=
  have _ := collation.transCmp Boundary.serviceId
  have _ := collation.transCmp Boundary.taskId
  inferInstanceAs (Std.TransCmp (compareLex (compareOn Boundary.lastSeenAt)
    (compareLex (fun x y => collation.cmp x.serviceId y.serviceId)
      (fun x y => collation.cmp x.taskId y.taskId))))

instance : Std.TransCmp (byBoundary z collation) :=
  have tuples : Std.TransCmp (cmpTuple collation) := inferInstance
  { eq_swap := tuples.eq_swap
    isLE_trans := tuples.isLE_trans }

/-- When the document was seen, where `datetime.min` stands for a missing time. -/
def seenAt (z : Calendar) (d : TaskSearchDocument) : Int :=
  (utcInstant z d.lastSeenAt).getD z.least

/-- The two ids, in the order of code points. -/
def cmpIds (a b : TaskSearchDocument) : Ordering :=
  (compare a.serviceId b.serviceId).then (compare a.taskId b.taskId)

/-- The two ids, in the order of the database. -/
def Collation.cmpIds (collation : Collation) (a b : TaskSearchDocument) : Ordering :=
  (collation.cmp a.serviceId b.serviceId).then (collation.cmp a.taskId b.taskId)

theorem byLastSeen_eq {e : TaskSearchDocument} (hd : d ∈ docs.docs) (he : e ∈ docs.docs) :
    byLastSeen z d e = (compare (seenAt z d) (seenAt z e)).then (cmpIds d e) := by
  simp only [byLastSeen, compareLex, compareOn, Calendar.instant_eq (instant_lastSeen hd),
    Calendar.instant_eq (instant_lastSeen he)]
  rfl

theorem byBoundary_eq (d e : TaskSearchDocument) :
    byBoundary z collation (rowOf z d) (rowOf z e) =
      (compare (seenAt z d) (seenAt z e)).then (collation.cmpIds d e) := rfl

theorem eq_of_cmpIds {e : TaskSearchDocument} (h : cmpIds d e = .eq) : d.id = e.id := by
  obtain ⟨service, task⟩ := Ordering.then_eq_eq.mp h
  exact Prod.ext (Std.LawfulEqOrd.eq_of_compare service) (Std.LawfulEqOrd.eq_of_compare task)

theorem Collation.eq_of_cmpIds {e : TaskSearchDocument} (h : collation.cmpIds d e = .eq) :
    d.id = e.id := by
  have := collation.lawful
  obtain ⟨service, task⟩ := Ordering.then_eq_eq.mp h
  exact Prod.ext (Std.LawfulEqCmp.eq_of_compare service) (Std.LawfulEqCmp.eq_of_compare task)

theorem distinct_foundItems : ((foundItems docs q).map TaskSearchDocument.id).Nodup := by
  refine ((Descending.sort_perm _ _).map _).nodup_iff.mpr ?_
  exact (List.Sublist.map _ List.filter_sublist).nodup (nodup_candidates_stored z docs.distinct q)

/-- The documents that Redis finds are sorted downwards. -/
theorem sorted_foundItems : Descending.Sorted (byLastSeen z) (foundItems docs q) := by
  have distinct : Descending.Distinct (byLastSeen z)
      ((candidates (stored docs.docs) q).filterMap (stored docs.docs).docs) := by
    refine (List.pairwise_map.mp (nodup_candidates_stored z docs.distinct q)).imp_of_mem
      fun {a b} ha hb ne same => ne ?_
    have inside {d : TaskSearchDocument}
        (hd : d ∈ (candidates (stored docs.docs) q).filterMap (stored docs.docs).docs) :
        d ∈ docs.docs := ((mem_candidates_stored z docs.distinct).mp hd).1
    rw [byLastSeen_eq (inside ha) (inside hb)] at same
    exact eq_of_cmpIds (Ordering.then_eq_eq.mp same).2
  exact Descending.sorted_sort (distinct.filter _)

theorem walk_redis (codec : CursorCodec) (read : q.Readable z) : Pages.Walk
    (redisPage z codec (stored docs.docs) now q) none (foundItems docs q) := by
  have answer : redisPage z codec (stored docs.docs) now q =
      codec.paginate position (foundItems docs q) q.limit := by
    funext cursor
    rw [redisPage, filtered_eq read, Option.bind_some]
    rfl
  rw [answer]
  refine CursorCodec.walk_paginate ?_
  have distinct : ((foundItems docs q).map TaskSearchDocument.id).Nodup := distinct_foundItems
  refine (List.pairwise_map.mp distinct).imp fun {a b} ne same => ne ?_
  have service : ("service_id", b.serviceId) ∈ position a := same.subset (by simp [position])
  have task : ("task_id", b.taskId) ∈ position a := same.subset (by simp [position])
  have services : b.serviceId = a.serviceId := by simpa [position] using service
  have tasks : b.taskId = a.taskId := by simpa [position] using task
  exact Prod.ext services.symm tasks.symm

/-! ## PostgreSQL -/

/-- The rows of the documents. -/
def rowsOf (docs : TaskDocuments z now) : List (TaskRow z) := docs.docs.filterMap (taskValues z)

theorem rowsOf_eq : rowsOf docs = docs.docs.map (rowOf z) := by
  rw [rowsOf, ← List.filterMap_eq_map]
  refine List.filterMap_congr fun d hd => ?_
  obtain ⟨row, made⟩ := Option.isSome_iff_exists.mp (docs.storable d hd).1
  rw [made, taskValues_eq made, Function.comp_apply]

/-- The rows that PostgreSQL finds, when it can read the bounds. -/
def foundRows (collation : Collation) (docs : TaskDocuments z now) (q : Query) :
    List (TaskRow z) :=
  Descending.sort (byBoundary z collation) ((rowsOf docs).filter
    (passes z now q.filters (dt z q.fromTimestamp).join (dt z q.toTimestamp).join))

theorem mem_foundRows {row : TaskRow z} : row ∈ foundRows collation docs q ↔
    ∃ d ∈ docs.docs, rowOf z d = row ∧ Asked q d ∧ Within z (utcInstant z) q d := by
  rw [foundRows, Descending.mem_sort, List.mem_filter, rowsOf_eq, List.mem_map]
  constructor
  · rintro ⟨⟨d, hd, rfl⟩, kept⟩
    exact ⟨d, hd, rfl, (passes_rowOf hd _ _).mp kept⟩
  · rintro ⟨d, hd, rfl, kept⟩
    exact ⟨⟨d, hd, rfl⟩, (passes_rowOf hd _ _).mpr kept⟩

theorem distinct_rows : Descending.Distinct (byBoundary z collation) (rowsOf docs) := by
  rw [rowsOf_eq]
  refine List.pairwise_map.mpr ((List.pairwise_map.mp docs.distinct).imp fun {a b} ne same => ne ?_)
  rw [byBoundary_eq] at same
  exact Collation.eq_of_cmpIds (Ordering.then_eq_eq.mp same).2

theorem sorted_foundRows :
    Descending.Sorted (byBoundary z collation) (foundRows collation docs q) :=
  Descending.sorted_sort (distinct_rows.filter _)

theorem decode_position (codec : CursorCodec) (d : TaskSearchDocument) :
    codec.decodeCursor (codec.encodeCursor (position d)) = some (position d) := by
  have keys : ["last_seen_at", "service_id", "task_id"].Pairwise (· ≤ ·) := by decide
  have inOrder : ((position d).map (·.1)).Pairwise (· ≤ ·) := keys
  rw [CursorCodec.decode_encode]
  exact congrArg some (List.Pairwise.insertionSort_eq (List.pairwise_map.mp inOrder))

/-- A cursor is read as the boundary of the row that it was made of. -/
theorem boundaryOf_encoded (codec : CursorCodec) {row : TaskRow z}
    (sent : sendable row.serviceId = true ∧ sendable row.taskId = true) :
    boundaryOf z codec (codec.encodeCursor (position (taskFromRow z row))) =
      some row.boundary := by
  have seen : dt z (some ((taskFromRow z row).lastSeenAt.getD "")) = some row.lastSeenAt :=
    dt_shown _
  have keys : ((position (taskFromRow z row)).map (·.1)).Perm
      ["last_seen_at", "service_id", "task_id"] := List.Perm.refl _
  have fields : (position (taskFromRow z row)).lookup "last_seen_at" =
        some ((taskFromRow z row).lastSeenAt.getD "") ∧
      (position (taskFromRow z row)).lookup "service_id" = some row.serviceId ∧
      (position (taskFromRow z row)).lookup "task_id" = some row.taskId := ⟨rfl, rfl, rfl⟩
  rw [boundaryOf, decode_position]
  simp only [Option.bind_eq_bind, Option.bind_some, if_pos keys, fields, seen, Option.getD_some,
    if_pos sent]
  rfl

theorem searchTaskPage_eq (codec : CursorCodec) {rows : List (TaskRow z)}
    (distinct : Descending.Distinct (byBoundary z collation) rows) {start stop : Option (Instant z)}
    (hstart : bound z q.fromTimestamp = some start) (hstop : bound z q.toTimestamp = some stop)
    (plain : q.filters.all (sendable ·.2) = true) (cursor : Option String) :
    searchTaskPage z collation codec rows now q cursor =
      (afterCursor z collation codec cursor).map fun below =>
        Pages.cut (fun d => codec.encodeCursor (position d)) (max 1 q.limit).toNat
          (((Descending.sort (byBoundary z collation)
            (rows.filter (passes z now q.filters start stop))).filter below).map
              (taskFromRow z)) := by
  unfold searchTaskPage
  rw [hstart, hstop]
  cases afterCursor z collation codec cursor with
  | none => rfl
  | some below =>
    have apart : (rows.filter fun row => passes z now q.filters start stop row && below row) =
        (rows.filter (passes z now q.filters start stop)).filter below := by
      rw [List.filter_filter]
      exact List.filter_congr fun row _ => Bool.and_comm ..
    simp only [Option.bind_eq_bind, Option.bind_some, Option.map_some, if_pos plain]
    rw [apart, ← Descending.sort_filter (distinct.filter _)]
    generalize (Descending.sort (byBoundary z collation)
      (rows.filter (passes z now q.filters start stop))).filter below = found
    generalize (max 1 q.limit).toNat = limit
    have page : ((found.take (limit + 1)).map (taskFromRow z)).take limit =
        (found.map (taskFromRow z)).take limit := by
      rw [← List.map_take, ← List.map_take, List.take_take, Nat.min_eq_left (Nat.le_succ limit)]
    have more : ((found.map (taskFromRow z)).take limit).length <
        ((found.take (limit + 1)).map (taskFromRow z)).length ↔
          limit < (found.map (taskFromRow z)).length := by
      simp only [List.length_take, List.length_map]
      omega
    simp only [page, more, Pages.cut, Option.pure_def]

theorem walk_postgres (codec : CursorCodec) {start stop : Option (Instant z)}
    (hstart : bound z q.fromTimestamp = some start) (hstop : bound z q.toTimestamp = some stop)
    (plain : q.filters.all (sendable ·.2) = true) :
    Pages.Walk (searchTaskPage z collation codec (rowsOf docs) now q) none
      ((foundRows collation docs q).map (taskFromRow z)) := by
  have found : Descending.sort (byBoundary z collation)
      ((rowsOf docs).filter (passes z now q.filters start stop)) = foundRows collation docs q := by
    rw [foundRows, dt_of_bound hstart, dt_of_bound hstop, Option.join_some, Option.join_some]
  have page (cursor : Option String) : searchTaskPage z collation codec (rowsOf docs) now q cursor =
      (afterCursor z collation codec cursor).map fun below =>
        Pages.cut (fun d => codec.encodeCursor (position d)) (max 1 q.limit).toNat
          (((foundRows collation docs q).filter below).map (taskFromRow z)) := by
    rw [searchTaskPage_eq codec distinct_rows hstart hstop plain, found]
  refine Pages.walk_cut (fun d => codec.encodeCursor (position d))
    (by omega : 1 ≤ (max 1 q.limit).toNat) ?_ ?_
  · have all : (foundRows collation docs q).filter (fun _ => true) = foundRows collation docs q :=
      List.filter_true _
    rw [page, afterCursor]
    dsimp only [Option.filter]
    rw [Option.map_some, all]
  · intro above a rest split
    obtain ⟨aboves, below, whole, -, here⟩ := List.map_eq_append_iff.mp split
    obtain ⟨row, rests, rfl, rfl, rfl⟩ := List.map_eq_cons_iff.mp here
    have inside : row ∈ foundRows collation docs q := by
      rw [whole]
      exact List.mem_append_right _ List.mem_cons_self
    obtain ⟨d, hd, rfl, -⟩ := mem_foundRows.mp inside
    have sent := (docs.storable d hd).2
    have given : (some (codec.encodeCursor (position (taskFromRow z (rowOf z d))))).filter
        (· ≠ "") = some (codec.encodeCursor (position (taskFromRow z (rowOf z d)))) := by
      rw [Option.filter_eq_some_iff]
      exact ⟨rfl, decide_eq_true (codec.write_ne _)⟩
    have after : (foundRows collation docs q).filter (fun row =>
        cmpTuple collation row.boundary (rowOf z d).boundary = .lt) = rests := by
      have sorted : Descending.Sorted (byBoundary z collation) (foundRows collation docs q) :=
        sorted_foundRows
      rw [whole] at sorted ⊢
      exact sorted.filter_lt
    rw [page, afterCursor, given]
    dsimp only
    rw [boundaryOf_encoded codec sent, Option.map_some, Option.map_some, after]

/-! ## When the stores agree -/

/-- The pages of both stores show the same tasks: each one that the query asks for once, the one
that was seen last first. A cursor is read as the position that it was made of. -/
def SamePages (z : Calendar) (collation : Collation) (codec : CursorCodec) {now : Int}
    (docs : TaskDocuments z now) (q : Query) : Prop :=
  (∃ items items' : List TaskSearchDocument,
    Pages.Walk (redisPage z codec (stored docs.docs) now q) none items ∧
    Pages.Walk (searchTaskPage z collation codec (rowsOf docs) now q) none items' ∧
    items.map TaskSearchDocument.id = items'.map TaskSearchDocument.id ∧
    items.Pairwise (fun a b => byLastSeen z a b = .gt) ∧
    ∀ d, d ∈ items ↔ d ∈ docs.docs ∧ Asked q d ∧ Within z z.instant q d) ∧
  ∀ d, codec.decodeCursor (codec.encodeCursor (position d)) = some (position d)

/-- Both stores can read the bounds, the database takes the values of the query, and the bounds
mean the same to both stores for every document that has these values; texts are in the same order
for documents that were seen at the same time. -/
structure Agree (z : Calendar) (collation : Collation) {now : Int} (docs : TaskDocuments z now)
    (q : Query) : Prop where
  readable : q.Readable z
  bounds : (bound z q.fromTimestamp).isSome = true ∧ (bound z q.toTimestamp).isSome = true
  plain : q.filters.all (sendable ·.2) = true
  ranges : ∀ d ∈ docs.docs, Asked q d → (Within z z.instant q d ↔ Within z (utcInstant z) q d)
  orders : ∀ d ∈ docs.docs, ∀ e ∈ docs.docs, Asked q d → Asked q e →
    Within z z.instant q d → Within z z.instant q e → seenAt z d = seenAt z e →
      cmpIds d e = collation.cmpIds d e

theorem eq_of_id {e : TaskSearchDocument} (hd : d ∈ docs.docs) (he : e ∈ docs.docs)
    (same : d.id = e.id) : d = e := List.inj_on_of_nodup_map docs.distinct hd he same

theorem mem_ids_foundItems (hd : d ∈ docs.docs) (asked : Asked q d) :
    d.id ∈ (foundItems docs q).map TaskSearchDocument.id ↔
      Within z z.instant q d := by
  rw [List.mem_map]
  constructor
  · rintro ⟨e, he, same⟩
    obtain ⟨he, -, within_⟩ := mem_foundItems.mp he
    exact eq_of_id he hd same ▸ within_
  · exact fun within_ => ⟨d, mem_foundItems.mpr ⟨hd, asked, within_⟩, rfl⟩

theorem mem_ids_foundRows (hd : d ∈ docs.docs) (asked : Asked q d) :
    d.id ∈ ((foundRows collation docs q).map (taskFromRow z)).map TaskSearchDocument.id ↔
      Within z (utcInstant z) q d := by
  rw [List.map_map, List.mem_map]
  constructor
  · rintro ⟨row, hrow, same⟩
    obtain ⟨e, he, rfl, -, within_⟩ := mem_foundRows.mp hrow
    exact eq_of_id he hd same ▸ within_
  · exact fun within_ => ⟨rowOf z d, mem_foundRows.mpr ⟨d, hd, rfl, asked, within_⟩, rfl⟩

theorem Agree.foundRows_eq (h : Agree z collation docs q) :
    foundRows collation docs q = (foundItems docs q).map (rowOf z) := by
  have sorted : Descending.Sorted (byLastSeen z) (foundItems docs q) :=
    sorted_foundItems
  have rows : Descending.Sorted (byBoundary z collation)
      ((foundItems docs q).map (rowOf z)) := by
    refine List.pairwise_map.mpr (sorted.imp_of_mem fun {a b} ha hb gt => ?_)
    obtain ⟨ha, askedA, withinA⟩ := mem_foundItems.mp ha
    obtain ⟨hb, askedB, withinB⟩ := mem_foundItems.mp hb
    rw [byLastSeen_eq ha hb] at gt
    rw [byBoundary_eq]
    cases times : compare (seenAt z a) (seenAt z b) with
    | eq =>
      rw [times] at gt
      rw [← h.orders a ha b hb askedA askedB withinA withinB (Std.LawfulEqOrd.eq_of_compare times)]
      exact gt
    | lt => rw [times] at gt; cases gt
    | gt => rfl
  refine sorted_foundRows.eq_of_perm rows ?_
  refine (List.perm_ext_iff_of_nodup sorted_foundRows.nodup rows.nodup).mpr fun row => ?_
  rw [mem_foundRows, List.mem_map]
  constructor
  · rintro ⟨d, hd, rfl, asked, within_⟩
    exact ⟨d, mem_foundItems.mpr ⟨hd, asked, (h.ranges d hd asked).mpr within_⟩, rfl⟩
  · rintro ⟨d, hd, rfl⟩
    obtain ⟨hd, asked, within_⟩ := mem_foundItems.mp hd
    exact ⟨d, hd, rfl, asked, (h.ranges d hd asked).mp within_⟩

/-- Where both stores list the same ids, two documents of the list compare alike. -/
theorem cmpIds_of_same
    (same : (foundItems docs q).map TaskSearchDocument.id =
      ((foundRows collation docs q).map (taskFromRow z)).map TaskSearchDocument.id)
    {e : TaskSearchDocument} (hd : d ∈ foundItems docs q)
    (he : e ∈ foundItems docs q) (seen : seenAt z d = seenAt z e) :
    cmpIds d e = collation.cmpIds d e := by
  have ids : (((foundRows collation docs q).map (taskFromRow z)).map
      TaskSearchDocument.id).Pairwise fun i j => ∀ a ∈ docs.docs, ∀ b ∈ docs.docs,
        a.id = i → b.id = j → byBoundary z collation (rowOf z a) (rowOf z b) = .gt := by
    rw [List.map_map, List.pairwise_map]
    refine sorted_foundRows.imp_of_mem fun {r s} hr hs gt a ha b hb first second => ?_
    obtain ⟨a', ha', rfl, -⟩ := mem_foundRows.mp hr
    obtain ⟨b', hb', rfl, -⟩ := mem_foundRows.mp hs
    obtain rfl := eq_of_id ha ha' first
    obtain rfl := eq_of_id hb hb' second
    exact gt
  rw [← same, List.pairwise_map] at ids
  have both : (foundItems docs q).Pairwise fun a b => seenAt z a = seenAt z b →
      cmpIds a b = collation.cmpIds a b ∧ cmpIds b a = collation.cmpIds b a := by
    refine (sorted_foundItems.and ids).imp_of_mem fun {a b} ha hb ⟨gt, gts⟩ times => ?_
    have ha' := (mem_foundItems.mp ha).1
    have hb' := (mem_foundItems.mp hb).1
    have gt' := gts a ha' b hb' rfl rfl
    have lt := Std.OrientedCmp.gt_iff_lt.mp gt
    have lt' := Std.OrientedCmp.gt_iff_lt.mp gt'
    have self : compare (seenAt z b) (seenAt z b) = .eq := Std.ReflCmp.compare_self
    rw [byLastSeen_eq ha' hb', times, self] at gt
    rw [byLastSeen_eq hb' ha', times, self] at lt
    rw [byBoundary_eq, times, self] at gt' lt'
    exact ⟨gt.trans gt'.symm, lt.trans lt'.symm⟩
  by_cases one : d = e
  · subst one
    have self : byLastSeen z d d = .eq := Std.ReflCmp.compare_self
    have self' : byBoundary z collation (rowOf z d) (rowOf z d) = .eq :=
      Std.ReflCmp.compare_self
    rw [byLastSeen_eq (mem_foundItems.mp hd).1 (mem_foundItems.mp hd).1] at self
    rw [byBoundary_eq] at self'
    exact (Ordering.then_eq_eq.mp self).2.trans (Ordering.then_eq_eq.mp self').2.symm
  · have symmetric : Std.Symm fun a b => seenAt z a = seenAt z b →
        cmpIds a b = collation.cmpIds a b ∧ cmpIds b a = collation.cmpIds b a :=
      ⟨fun _ _ h times => (h times.symm).symm⟩
    exact (both.forall hd he one seen).1

/-- A page of the database has read the bounds, and sent the values. -/
theorem bounds_of_isSome {codec : CursorCodec} {rows : List (TaskRow z)} {cursor : Option String}
    (h : (searchTaskPage z collation codec rows now q cursor).isSome = true) :
    ∃ start stop, bound z q.fromTimestamp = some start ∧ bound z q.toTimestamp = some stop ∧
      q.filters.all (sendable ·.2) = true := by
  obtain ⟨page, h⟩ := Option.isSome_iff_exists.mp h
  obtain ⟨start, hstart, h⟩ := Option.bind_eq_some_iff.mp h
  obtain ⟨stop, hstop, h⟩ := Option.bind_eq_some_iff.mp h
  obtain ⟨below, -, h⟩ := Option.bind_eq_some_iff.mp h
  split_ifs at h with plain
  · exact ⟨start, stop, hstart, hstop, plain⟩

theorem readable_of_isSome {codec : CursorCodec} {g : Redis} {cursor : Option String}
    (h : (redisPage z codec g now q cursor).isSome = true) : q.Readable z := by
  obtain ⟨page, h⟩ := Option.isSome_iff_exists.mp h
  obtain ⟨items, h, -⟩ := Option.bind_eq_some_iff.mp h
  obtain ⟨found, h, -⟩ := Option.map_eq_some_iff.mp h
  obtain ⟨live, -, h⟩ := Option.bind_eq_some_iff.mp h
  obtain ⟨start, hstart, h⟩ := Option.bind_eq_some_iff.mp h
  obtain ⟨stop, hstop, -⟩ := Option.bind_eq_some_iff.mp h
  exact ⟨Option.isSome_of_mem hstart, Option.isSome_of_mem hstop⟩

theorem SamePages.agree {codec : CursorCodec} (h : SamePages z collation codec docs q) :
    Agree z collation docs q := by
  obtain ⟨⟨items, items', redis, postgres, same, -⟩, -⟩ := h
  have read : q.Readable z := readable_of_isSome redis.isSome
  obtain ⟨start, stop, hstart, hstop, plain⟩ := bounds_of_isSome postgres.isSome
  rw [redis.unique (walk_redis codec read),
    postgres.unique (walk_postgres codec hstart hstop plain)]
    at same
  refine ⟨read, ⟨Option.isSome_of_mem hstart, Option.isSome_of_mem hstop⟩, plain,
    fun d hd asked => ?_, fun d hd e he askedD askedE withinD withinE =>
      cmpIds_of_same same (mem_foundItems.mpr ⟨hd, askedD, withinD⟩)
        (mem_foundItems.mpr ⟨he, askedE, withinE⟩)⟩
  rw [← mem_ids_foundItems hd asked, same, mem_ids_foundRows hd asked]

theorem Agree.samePages (h : Agree z collation docs q) (codec : CursorCodec) :
    SamePages z collation codec docs q := by
  obtain ⟨start, hstart⟩ := Option.isSome_iff_exists.mp h.bounds.1
  obtain ⟨stop, hstop⟩ := Option.isSome_iff_exists.mp h.bounds.2
  refine ⟨⟨_, _, walk_redis codec h.readable, walk_postgres codec hstart hstop h.plain, ?_,
    sorted_foundItems, fun d => mem_foundItems⟩, decode_position codec⟩
  rw [h.foundRows_eq, List.map_map, List.map_map]
  rfl

end Documents

/-- The pages of the two stores agree exactly when the query and the documents let them. -/
theorem task_pages_agree_iff (z : Calendar) (collation : Collation) (codec : CursorCodec)
    (now : Int) (docs : TaskDocuments z now) (q : Query) :
    SamePages z collation codec docs q ↔ Agree z collation docs q :=
  ⟨SamePages.agree, fun h => h.samePages codec⟩

/-! ## A time without an offset -/

/-- Eleven o'clock and noon of a day. -/
def newYearsDay : List (Int × String) :=
  [(1704106800000000, "2024-01-01T11:00:00"), (1704110400000000, "2024-01-01T12:00:00")]

/-- A server two hours east of Greenwich. -/
def eastern : Calendar :=
  .ofTable newYearsDay (fun t => some (t - 7200000000)) (by decide +kernel)

/-- The order of code points. -/
def codePoints : Collation where
  cmp := compare
  trans := inferInstance
  lawful := inferInstance

/-- A task that was last seen at eleven o'clock. -/
def seenAtEleven : TaskSearchDocument where
  serviceId := "payments"
  serviceName := "Payments"
  environment := "prod"
  taskId := "task-1"
  correlationId := none
  status := none
  stage := none
  firstSeenAt := none
  lastSeenAt := some "2024-01-01T11:00:00Z"
  latestEventType := none
  latestEventAt := none
  latestIngestedAt := none
  detailPath := "/studio/tasks/payments/task-1"
  expiresAt := none

def oneTask : TaskDocuments eastern 0 where
  docs := [seenAtEleven]
  distinct := List.nodup_singleton _
  lastSeen d hd := ⟨some 1704106800000000, by rw [List.mem_singleton.mp hd]; rfl⟩
  unexpired d hd := ⟨none, by rw [List.mem_singleton.mp hd]; rfl, nofun⟩
  storable d hd := by
    rw [List.mem_singleton.mp hd]
    decide +kernel

def fromNoon : Query where
  value _ := none
  fromTimestamp := some "2024-01-01T12:00:00"
  toTimestamp := none
  limit := 50
  cursor := none

/-- Noon is ten o'clock in UTC to the Redis store, and noon in UTC to the PostgreSQL store. -/
theorem noon_differs :
    ¬SamePages eastern codePoints (.ofTable [] Texts.reversible_nil) oneTask fromNoon := by
  intro h
  have here : seenAtEleven ∈ oneTask.docs := List.mem_singleton_self _
  have asked : Asked fromNoon seenAtEleven := fun b hb => absurd hb List.not_mem_nil
  have redis : Within eastern eastern.instant fromNoon seenAtEleven := by
    unfold Within
    decide +kernel
  have postgres : ¬Within eastern (utcInstant eastern) fromNoon seenAtEleven := by
    unfold Within
    decide +kernel
  exact postgres ((h.agree.ranges seenAtEleven here asked).mp redis)

end Relayna.Studio.TaskPages
