import Relayna.Foundation.Walks
import Relayna.Studio.ServiceSearch

/-!
# The two stores of service search

A store is `Indexed` when its sets are those of its documents. The documents that it knows a term
of are a matter of the store: Redis knows the prefixes of the tokens of every field, PostgreSQL the
texts within four columns, and the tags are not among them.
-/
namespace Relayna.Studio.ServiceSearch

open Python Contracts Search

variable {c : Builtins}

/-! ## Tokens -/

theorem mem_runs {cs run : List Char} (h : run ∈ runs cs) :
    run ≠ [] ∧ run.all tokenChar = true := by
  obtain ⟨inside, nonempty⟩ := List.mem_filter.mp h
  refine ⟨of_decide_eq_true nonempty, List.all_eq_true.mpr fun ch hch => ?_⟩
  have chars : ∀ (cs acc : List Char), (∀ a ∈ acc, tokenChar a = true) →
      ∀ run ∈ List.splitOnPPrepend (!tokenChar ·) cs acc, ∀ a ∈ run, tokenChar a = true := by
    intro cs
    induction cs with
    | nil =>
      intro acc plain run hrun a ha
      rw [List.splitOnPPrepend_nil, List.mem_singleton] at hrun
      subst hrun
      exact plain a (List.mem_reverse.mp ha)
    | cons b cs ih =>
      intro acc plain run hrun
      rw [List.splitOnPPrepend_cons_eq_if] at hrun
      split_ifs at hrun with separates
      · rcases List.mem_cons.mp hrun with rfl | hrun
        · exact fun a ha => plain a (List.mem_reverse.mp ha)
        · rw [← List.splitOnPPrepend_nil_right] at hrun
          exact ih [] (fun a ha => absurd ha List.not_mem_nil) run hrun
      · refine ih (b :: acc) (fun a ha => ?_) run hrun
        rcases List.mem_cons.mp ha with rfl | ha
        · simpa using separates
        · exact plain a ha
  exact chars cs [] (fun a ha => absurd ha List.not_mem_nil) run inside ch hch

theorem mem_tokenize {value : Option String} {token : String} (h : token ∈ tokenize c value) :
    token.toList ≠ [] ∧ token.toList.all tokenChar = true := by
  obtain ⟨run, hrun, rfl⟩ := List.mem_map.mp h
  rw [String.toList_ofList]
  exact mem_runs hrun

theorem mem_buildPrefixTokens {value term : String} (nonempty : term.toList ≠ []) :
    term ∈ buildPrefixTokens c value ↔
      ∃ token ∈ tokenize c (some value), term.toList <+: token.toList := by
  have starts (l : List Char) : term.toList ∈ l.inits.tail ↔ term.toList <+: l := by
    rw [← List.mem_inits, List.inits.eq_def]
    cases l with
    | nil => simp [nonempty]
    | cons a l => simp [nonempty]
  simp only [buildPrefixTokens, List.mem_flatMap, List.mem_map]
  refine exists_congr fun token => and_congr_right fun _ => ?_
  rw [← starts]
  constructor
  · rintro ⟨l, hl, rfl⟩
    rwa [String.toList_ofList]
  · exact fun h => ⟨_, h, String.ofList_toList⟩

/-- A field has every term as a prefix of one of its tokens. -/
def ServiceSearchDocument.Has (c : Builtins) (d : ServiceSearchDocument) (terms : List String) :
    Prop :=
  ∃ field ∈ d.fieldValues, ∀ term ∈ terms, ∃ value ∈ field.2,
    ∃ token ∈ tokenize c (some value), term.toList <+: token.toList

/-- The document passes the filters, and one of its fields has every term of the query. -/
def ServiceSearchQuery.Finds (c : Builtins) (q : ServiceSearchQuery) (d : ServiceSearchDocument) :
    Prop :=
  (∀ f ∈ q.filters, f.2 ∈ d.values f.1) ∧ d.Has c (tokenize c q.query)

theorem matched_ne_nil {d : ServiceSearchDocument} {value : Option String} :
    matchedServiceFields c d (tokenize c value) ≠ [] ↔ d.Has c (tokenize c value) := by
  rw [matchedServiceFields, ne_eq, List.map_eq_nil_iff, List.filter_eq_nil_iff]
  push Not
  refine exists_congr fun field => and_congr_right fun _ => ?_
  rw [List.all_eq_true]
  refine forall₂_congr fun term hterm => ?_
  rw [decide_eq_true_eq, List.mem_flatMap]
  exact exists_congr fun value => and_congr_right fun _ =>
    mem_buildPrefixTokens (mem_tokenize hterm).1

theorem isSome_itemOf {q : ServiceSearchQuery} {d : ServiceSearchDocument} :
    (itemOf c q d).isSome = true ↔ d.Has c (tokenize c q.query) := by
  unfold itemOf
  dsimp only
  split_ifs with none_ unmatched
  · refine iff_of_true rfl ⟨("service_id", [d.serviceId]), List.mem_cons_self, ?_⟩
    rw [none_]
    exact fun _ h => absurd h List.not_mem_nil
  · exact iff_of_false Bool.false_ne_true fun has => matched_ne_nil.mpr has unmatched
  · exact iff_of_true rfl (matched_ne_nil.mp unmatched)

theorem document_of_itemOf {q : ServiceSearchQuery} {d : ServiceSearchDocument}
    {item : ServiceSearchItem} (h : itemOf c q d = some item) : item.document = d := by
  unfold itemOf at h
  dsimp only at h
  split_ifs at h <;> cases h <;> rfl

/-! ## Stores -/

/-- The sets of a store are those of the documents in it; `knows` says of which documents it has a
term. -/
structure Indexed (store : Store) (stored : String → Option ServiceSearchDocument)
    (knows : String → ServiceSearchDocument → Prop) : Prop where
  document : ∀ id, store.document id = stored id
  named : ∀ id, ∀ d ∈ stored id, d.serviceId = id
  ids : ∀ id, id ∈ store.documentIds ↔ ∃ d, stored id = some d
  forFilter : ∀ field value id, value ≠ "" →
    (id ∈ store.idsForFilter field value ↔ ∃ d, stored id = some d ∧ value ∈ d.values field)
  forToken : ∀ token id, token.toList.all tokenChar = true →
    (id ∈ store.idsForToken token ↔ ∃ d, stored id = some d ∧ knows token d)
  nodup_ids : store.documentIds.Nodup
  nodup_filter : ∀ field value, (store.idsForFilter field value).Nodup

variable {store : Store} {stored : String → Option ServiceSearchDocument}
  {knows : String → ServiceSearchDocument → Prop} {q : ServiceSearchQuery}

instance : Std.TransCmp (byName c) :=
  inferInstanceAs (Std.TransCmp (compareLex (compareOn fun x : ServiceSearchItem =>
    c.lower x.document.name) (compareOn fun x => x.document.serviceId)))

instance : Std.TransCmp fun a b => byName c b a := Std.TransCmp.opposite

theorem mem_foldl_filter {terms : List String} {sets : String → List String} {ids : List String}
    {id : String} :
    id ∈ terms.foldl (fun ids term => ids.filter (· ∈ sets term)) ids ↔
      id ∈ ids ∧ ∀ term ∈ terms, id ∈ sets term := by
  induction terms generalizing ids with
  | nil => simp
  | cons term terms ih =>
    rw [List.foldl_cons, ih, List.mem_filter, decide_eq_true_eq, List.forall_mem_cons, and_assoc]

theorem foldl_filter_sublist {terms : List String} {sets : String → List String}
    {ids : List String} :
    (terms.foldl (fun ids term => ids.filter (· ∈ sets term)) ids).Sublist ids := by
  induction terms generalizing ids with
  | nil => exact List.Sublist.refl _
  | cons term terms ih => exact ih.trans List.filter_sublist

theorem ne_of_mem_filters {f : Field × String} (h : f ∈ q.filters) : f.2 ≠ "" := by
  obtain ⟨given, -, kept⟩ := List.mem_filterMap.mp h
  obtain ⟨value, normal, rfl⟩ := Option.map_eq_some_iff.mp kept
  exact of_decide_eq_true (Option.filter_eq_some_iff.mp normal).2

namespace Indexed

theorem mem_filteredIds (h : Indexed store stored knows) {id : String} :
    id ∈ filteredIds store q ↔
      ∃ d, stored id = some d ∧ ∀ f ∈ q.filters, f.2 ∈ d.values f.1 := by
  have nonempty : ∀ f ∈ q.filters, f.2 ≠ "" := fun _ => ne_of_mem_filters
  unfold filteredIds
  cases hf : q.filters with
  | nil => simp [h.ids]
  | cons f more =>
    rw [hf, List.forall_mem_cons] at nonempty
    simp only [List.map_cons, List.mem_filter, List.all_map, List.all_eq_true, Function.comp_apply,
      decide_eq_true_eq, List.forall_mem_cons]
    rw [h.forFilter _ _ _ nonempty.1]
    constructor
    · rintro ⟨⟨d, found, first⟩, rest⟩
      refine ⟨d, found, first, fun g hg => ?_⟩
      obtain ⟨d', found', value⟩ := (h.forFilter _ _ _ (nonempty.2 g hg)).mp (rest g hg)
      rw [found] at found'
      exact Option.some.inj found' ▸ value
    · rintro ⟨d, found, first, rest⟩
      exact ⟨⟨d, found, first⟩, fun g hg =>
        (h.forFilter _ _ _ (nonempty.2 g hg)).mpr ⟨d, found, rest g hg⟩⟩

theorem mem_candidateIds (h : Indexed store stored knows) {id : String} :
    id ∈ candidateIds c store q ↔ ∃ d, stored id = some d ∧
      (∀ f ∈ q.filters, f.2 ∈ d.values f.1) ∧ ∀ term ∈ tokenize c q.query, knows term d := by
  rw [candidateIds, mem_foldl_filter, h.mem_filteredIds]
  constructor
  · rintro ⟨⟨d, found, passes⟩, terms⟩
    refine ⟨d, found, passes, fun term hterm => ?_⟩
    obtain ⟨d', found', known⟩ := (h.forToken _ _ (mem_tokenize hterm).2).mp (terms term hterm)
    rw [found] at found'
    exact Option.some.inj found' ▸ known
  · rintro ⟨d, found, passes, terms⟩
    exact ⟨⟨d, found, passes⟩, fun term hterm =>
      (h.forToken _ _ (mem_tokenize hterm).2).mpr ⟨d, found, terms term hterm⟩⟩

theorem nodup_candidateIds (h : Indexed store stored knows) : (candidateIds c store q).Nodup := by
  refine List.Nodup.sublist foldl_filter_sublist ?_
  unfold filteredIds
  cases q.filters with
  | nil => exact h.nodup_ids
  | cons f more => exact (h.nodup_filter f.1 f.2).filter _

/-- The items that a search finds, in the order of their names. -/
theorem mem_found (h : Indexed store stored knows) {item : ServiceSearchItem} :
    item ∈ found c store q ↔ ∃ d, stored d.serviceId = some d ∧ itemOf c q d = some item ∧
      (∀ f ∈ q.filters, f.2 ∈ d.values f.1) ∧ ∀ term ∈ tokenize c q.query, knows term d := by
  rw [found, Descending.mem_sort, List.mem_filterMap]
  constructor
  · rintro ⟨id, hid, shown⟩
    obtain ⟨d, held, passes, known⟩ := h.mem_candidateIds.mp hid
    rw [h.document, held, Option.bind_some] at shown
    exact ⟨d, (h.named id d held).symm ▸ held, shown, passes, known⟩
  · rintro ⟨d, held, shown, passes, known⟩
    refine ⟨d.serviceId, h.mem_candidateIds.mpr ⟨d, held, passes, known⟩, ?_⟩
    rw [h.document, held, Option.bind_some, shown]

theorem distinct (h : Indexed store stored knows) :
    ((candidateIds c store q).filterMap fun id => (store.document id).bind (itemOf c q)).Pairwise
      fun a b => a.document.serviceId ≠ b.document.serviceId := by
  refine List.Pairwise.filterMap _ (fun id id' ne a ha b hb => ?_) h.nodup_candidateIds
  have named {id : String} {item : ServiceSearchItem}
      (shown : (store.document id).bind (itemOf c q) = some item) :
      item.document.serviceId = id := by
    obtain ⟨d, held, shown⟩ := Option.bind_eq_some_iff.mp shown
    rw [document_of_itemOf shown]
    exact h.named id d (h.document id ▸ held)
  rwa [named ha, named hb]

theorem sorted_found (h : Indexed store stored knows) :
    Descending.Sorted (fun a b => byName c b a) (found c store q) := by
  refine Descending.sorted_sort (h.distinct.imp fun {a b} ne same => ne ?_)
  exact (Std.LawfulEqOrd.eq_of_compare (compareLex_eq_eq.mp same).2).symm

/-- Two stores with the same documents find the same where they know the same. -/
theorem found_eq_iff {store' : Store} {knows' : String → ServiceSearchDocument → Prop}
    (h : Indexed store stored knows) (h' : Indexed store' stored knows')
    (more : ∀ d, stored d.serviceId = some d → q.Finds c d →
      ∀ term ∈ tokenize c q.query, knows term d) :
    found c store' q = found c store q ↔ ∀ d, stored d.serviceId = some d → q.Finds c d →
      ∀ term ∈ tokenize c q.query, knows' term d := by
  constructor
  · rintro same d held ⟨passes, has⟩ term hterm
    obtain ⟨item, shown⟩ := Option.isSome_iff_exists.mp (isSome_itemOf.mpr has)
    have here : item ∈ found c store q :=
      h.mem_found.mpr ⟨d, held, shown, passes, more d held ⟨passes, has⟩⟩
    obtain ⟨d', -, shown', -, known⟩ := h'.mem_found.mp (same ▸ here)
    have document : d = d' := (document_of_itemOf shown).symm.trans (document_of_itemOf shown')
    exact document ▸ known term hterm
  · intro known
    refine h'.sorted_found.eq_of_perm h.sorted_found ?_
    refine (List.perm_ext_iff_of_nodup h'.sorted_found.nodup h.sorted_found.nodup).mpr
      fun item => ?_
    rw [h'.mem_found, h.mem_found]
    refine exists_congr fun d => and_congr_right fun held => and_congr_right fun shown => ?_
    refine and_congr_right fun passes => ?_
    have finds : q.Finds c d := ⟨passes, isSome_itemOf.mp (Option.isSome_of_eq_some shown)⟩
    exact iff_of_true (known d held finds) (more d held finds)

theorem walk (h : Indexed store stored knows) (codec : CursorCodec) :
    Pages.Walk (searchServices c store q codec) none (found c store q) := by
  refine CursorCodec.walk_paginate (h.sorted_found.imp fun {a b} gt same => ?_)
  have name : ("name", c.lower b.document.name) ∈ position c a :=
    same.subset (by simp [position])
  have id : ("service_id", b.document.serviceId) ∈ position c a :=
    same.subset (by simp [position])
  have both : byName c b a = .eq := by
    refine compareLex_eq_eq.mpr ⟨?_, ?_⟩
    · exact Std.LawfulEqOrd.compare_eq_iff_eq.mpr (by simpa [position] using name)
    · exact Std.LawfulEqOrd.compare_eq_iff_eq.mpr (by simpa [position] using id)
  cases both.symm.trans gt

end Indexed

/-! ## Redis -/

namespace RedisStudioSearchStore

variable {s : RedisStudioSearchStore}

theorem sadd_foldl (s : RedisStudioSearchStore) (id : String) (keys : List Key) :
    (keys.foldl (·.sadd id) s).docs = s.docs ∧
      (∀ id' key, id' ∈ (keys.foldl (·.sadd id) s).sets key ↔
        id' ∈ s.sets key ∨ id' = id ∧ key ∈ keys) ∧
      ((∀ key, (s.sets key).Nodup) → ∀ key, ((keys.foldl (·.sadd id) s).sets key).Nodup) := by
  induction keys generalizing s with
  | nil => exact ⟨rfl, by simp, fun distinct => distinct⟩
  | cons k keys ih =>
    obtain ⟨docs, sets, nodup⟩ := ih (s.sadd id k)
    refine ⟨docs, fun id' key => (sets id' key).trans ?_, fun distinct => nodup fun key => ?_⟩
    · by_cases same : key = k
      · subst same
        simp only [sadd, Function.update_self, List.mem_cons, true_or, and_true]
        split_ifs with known
        · grind
        · grind
      · simp [sadd, same]
    · by_cases same : key = k
      · subst same
        simp only [sadd, Function.update_self]
        split_ifs with known
        · exact distinct key
        · exact List.concat_eq_append ▸ (distinct key).concat known
      · simpa [sadd, Function.update_of_ne same] using distinct key

theorem srem_foldl (s : RedisStudioSearchStore) (id : String) (keys : List Key) :
    (keys.foldl (·.srem id) s).docs = s.docs ∧
      (∀ id' key, id' ∈ (keys.foldl (·.srem id) s).sets key ↔
        id' ∈ s.sets key ∧ ¬(id' = id ∧ key ∈ keys)) ∧
      ((∀ key, (s.sets key).Nodup) → ∀ key, ((keys.foldl (·.srem id) s).sets key).Nodup) := by
  induction keys generalizing s with
  | nil => exact ⟨rfl, by simp, fun distinct => distinct⟩
  | cons k keys ih =>
    obtain ⟨docs, sets, nodup⟩ := ih (s.srem id k)
    refine ⟨docs, fun id' key => (sets id' key).trans ?_, fun distinct => nodup fun key => ?_⟩
    · by_cases same : key = k
      · subst same
        simp [srem, and_assoc]
        grind
      · simp [srem, same]
    · by_cases same : key = k
      · subst same
        simpa [srem] using (distinct key).filter _
      · simpa [srem, Function.update_of_ne same] using distinct key

/-- Every set is that of the documents that belong in it. -/
structure Settled (c : Builtins) (s : RedisStudioSearchStore) : Prop where
  named : ∀ id, ∀ d ∈ s.docs id, d.serviceId = id
  sets : ∀ id key, id ∈ s.sets key ↔ ∃ d, s.docs id = some d ∧ key ∈ Key.all :: indexKeys c d
  nodup : ∀ key, (s.sets key).Nodup

theorem all_notMem {d : ServiceSearchDocument} : Key.all ∉ indexKeys c d := by
  simp [indexKeys]

/-- Without its indexes a document is at most in the set of all. -/
theorem Settled.withoutIndexes (h : s.Settled c) (id : String) :
    (s.withoutIndexes c id).docs = s.docs ∧
      (∀ id' key, id' ∈ (s.withoutIndexes c id).sets key ↔ id' ∈ s.sets key ∧
        (id' = id → key = .all)) ∧
      ∀ key, ((s.withoutIndexes c id).sets key).Nodup := by
  unfold RedisStudioSearchStore.withoutIndexes
  cases held : s.docs id with
  | none =>
    refine ⟨rfl, fun id' key => ⟨fun mem => ⟨mem, ?_⟩, And.left⟩, h.nodup⟩
    rintro rfl
    obtain ⟨d, found, -⟩ := (h.sets _ _).mp mem
    rw [held] at found
    cases found
  | some d =>
    obtain rfl := h.named id d held
    obtain ⟨docs, sets, nodup⟩ := srem_foldl s d.serviceId (indexKeys c d)
    refine ⟨docs, fun id' key => (sets id' key).trans (and_congr_right fun mem => ?_),
      nodup h.nodup⟩
    constructor
    · rintro out rfl
      obtain ⟨d', found, own⟩ := (h.sets _ _).mp mem
      rw [held] at found
      cases found
      exact (List.mem_cons.mp own).resolve_right fun own => out ⟨rfl, own⟩
    · rintro all ⟨same, own⟩
      exact all_notMem (all same ▸ own)

theorem Settled.setServiceDocument (h : s.Settled c) (d : ServiceSearchDocument) :
    (s.setServiceDocument c d).Settled c ∧
      (s.setServiceDocument c d).docs = Function.update s.docs d.serviceId (some d) := by
  obtain ⟨docs, sets, nodup⟩ := h.withoutIndexes d.serviceId
  obtain ⟨docs', sets', nodup'⟩ := sadd_foldl { s.withoutIndexes c d.serviceId with
      docs := Function.update (s.withoutIndexes c d.serviceId).docs d.serviceId (some d) }
    d.serviceId (Key.all :: indexKeys c d)
  have stored : (s.setServiceDocument c d).docs = Function.update s.docs d.serviceId (some d) :=
    docs'.trans (congrArg (Function.update · d.serviceId (some d)) docs)
  refine ⟨⟨fun id d' found => ?_, fun id key => ?_, nodup' nodup⟩, stored⟩
  · rw [stored] at found
    by_cases same : id = d.serviceId
    · subst same
      rw [Function.update_self] at found
      exact congrArg _ (Option.some.inj found).symm
    · rw [Function.update_of_ne same] at found
      exact h.named id d' found
  · refine (sets' id key).trans ?_
    rw [stored]
    by_cases same : id = d.serviceId
    · subst same
      simp only [sets, h.sets, Function.update_self, Option.some.injEq, exists_eq_left', true_and,
        forall_const]
      constructor
      · rintro (⟨-, rfl⟩ | own)
        · exact List.mem_cons_self
        · exact own
      · exact Or.inr
    · simp only [sets, h.sets, same, false_and, or_false, Function.update_of_ne same,
        false_imp_iff, and_true]

theorem Settled.deleteServiceDocument (h : s.Settled c) (id : String) :
    (s.deleteServiceDocument c id).Settled c ∧
      (s.deleteServiceDocument c id).docs = Function.update s.docs id none := by
  obtain ⟨docs, sets, nodup⟩ := h.withoutIndexes id
  obtain ⟨docs', sets', nodup'⟩ := srem_foldl { s.withoutIndexes c id with
      docs := Function.update (s.withoutIndexes c id).docs id none } id [Key.all]
  have stored : (s.deleteServiceDocument c id).docs = Function.update s.docs id none :=
    docs'.trans (congrArg (Function.update · id none) docs)
  refine ⟨⟨fun id' d' found => ?_, fun id' key => ?_, nodup' nodup⟩, stored⟩
  · rw [stored] at found
    by_cases same : id' = id
    · subst same
      rw [Function.update_self] at found
      cases found
    · rw [Function.update_of_ne same] at found
      exact h.named id' d' found
  · refine (sets' id' key).trans ?_
    rw [stored]
    by_cases same : id' = id
    · subst same
      simp only [sets, Function.update_self, List.mem_singleton, true_and, forall_const]
      simp
    · simp only [sets, h.sets, same, false_and, not_false_eq_true, and_true,
        Function.update_of_ne same, false_imp_iff]

theorem settled_empty : ({} : RedisStudioSearchStore).Settled c where
  named _ _ found := by cases found
  sets id key := by simp
  nodup key := List.nodup_nil

/-- The terms that Redis knows of a document. -/
def Knows (c : Builtins) (token : String) (d : ServiceSearchDocument) : Prop :=
  token ∈ serviceTokens c d

theorem Settled.indexed (h : s.Settled c) : Indexed s.store s.docs (Knows c) where
  document _ := rfl
  named := h.named
  ids id := by
    refine (h.sets id .all).trans ?_
    simp
  forFilter field value id _ := by
    refine (h.sets id (.filter field value)).trans ?_
    have own (d : ServiceSearchDocument) :
        Key.filter field value ∈ Key.all :: indexKeys c d ↔ value ∈ d.values field := by
      simp only [indexKeys, List.mem_cons, reduceCtorEq, false_or, List.mem_append,
        List.mem_flatMap, List.mem_map, Key.filter.injEq, and_false, exists_false, or_false]
      constructor
      · rintro ⟨f, -, v, hv, rfl, rfl⟩
        exact hv
      · exact fun hv => ⟨field, by cases field <;> simp, value, hv, rfl, rfl⟩
    simp only [own]
  forToken token id _ := by
    refine (h.sets id (.token token)).trans ?_
    simp [indexKeys, Knows]
  nodup_ids := h.nodup .all
  nodup_filter field value := h.nodup _

end RedisStudioSearchStore

/-! ## PostgreSQL -/

namespace PostgresStudioSearchStore

variable {s : PostgresStudioSearchStore}

/-- The terms that PostgreSQL knows of a document. -/
def Knows (c : Builtins) (token : String) (d : ServiceSearchDocument) : Prop :=
  ∃ column ∈ columns d, token.toList <:+: (c.dbLower column).toList

theorem mem_serviceIds (distinct : (s.rows.map (·.serviceId)).Nodup)
    {predicate : ServiceSearchDocument → Bool} {id : String} :
    id ∈ s.serviceIds predicate ↔
      ∃ d, Keyed.get? (·.serviceId) id s.rows = some d ∧ predicate d = true := by
  rw [serviceIds, List.mem_map]
  constructor
  · rintro ⟨d, hd, rfl⟩
    obtain ⟨inside, holds⟩ := List.mem_filter.mp hd
    exact ⟨d, Keyed.get?_of_mem distinct inside, holds⟩
  · rintro ⟨d, found, holds⟩
    exact ⟨d, List.mem_filter.mpr ⟨Keyed.mem_of_get? found, holds⟩, Keyed.key_of_get? found⟩

theorem plain_of_token {token : List Char} (h : token.all tokenChar = true) : Like.Plain token := by
  intro ch hch
  have := List.all_eq_true.mp h ch hch
  constructor
  · rintro rfl
    exact absurd this (by decide)
  · rintro rfl
    exact absurd this (by decide)

theorem indexed (distinct : (s.rows.map (·.serviceId)).Nodup) :
    Indexed (s.store c) (fun id => Keyed.get? (·.serviceId) id s.rows) (Knows c) where
  document _ := rfl
  named _ _ found := Keyed.key_of_get? found
  ids id := by
    refine (mem_serviceIds distinct).trans ?_
    simp
  forFilter field value id nonempty := by
    refine (mem_serviceIds distinct).trans (exists_congr fun d => and_congr_right fun _ => ?_)
    cases field with
    | health =>
      simp only [decide_eq_true_eq, ServiceSearchDocument.values, Option.mem_toList,
        Option.filter_eq_some_iff]
      exact ⟨fun same => ⟨same, nonempty⟩, And.left⟩
    | environment => simp [ServiceSearchDocument.values, eq_comm]
    | status => simp [ServiceSearchDocument.values, eq_comm]
    | tag => simp [ServiceSearchDocument.values]
  forToken token id plain := by
    refine (mem_serviceIds distinct).trans (exists_congr fun d => and_congr_right fun _ => ?_)
    rw [List.any_eq_true]
    refine exists_congr fun column => and_congr_right fun _ => ?_
    rw [c.lower_token token plain]
    exact Like.like_anywhere (plain_of_token plain)
  nodup_ids := distinct.sublist (List.Sublist.map _ List.filter_sublist)
  nodup_filter _ _ := distinct.sublist (List.Sublist.map _ List.filter_sublist)

end PostgresStudioSearchStore

/-! ## The same documents in both -/

def Call.on (stored : String → Option ServiceSearchDocument) :
    Call → String → Option ServiceSearchDocument
  | .set d => Function.update stored d.serviceId (some d)
  | .delete serviceId => Function.update stored serviceId none

/-- The documents that the calls leave. -/
def documentsAfter (calls : List Call) : String → Option ServiceSearchDocument :=
  calls.foldl Call.on fun _ => none

theorem redisAfter_settled (calls : List Call) :
    (redisAfter c calls).Settled c ∧ (redisAfter c calls).docs = documentsAfter calls := by
  unfold redisAfter documentsAfter
  generalize hs : ({} : RedisStudioSearchStore) = s
  generalize hf : (fun _ => none : String → Option ServiceSearchDocument) = f
  have start : s.Settled c ∧ s.docs = f := by
    subst hs hf
    exact ⟨RedisStudioSearchStore.settled_empty, rfl⟩
  clear hs hf
  induction calls generalizing s f with
  | nil => exact start
  | cons call calls ih =>
    obtain ⟨settled, rfl⟩ := start
    cases call with
    | set d => exact ih _ _ (settled.setServiceDocument d)
    | delete serviceId => exact ih _ _ (settled.deleteServiceDocument serviceId)

theorem postgresAfter_rows (calls : List Call) :
    ((postgresAfter calls).rows.map (·.serviceId)).Nodup ∧
      (fun id => Keyed.get? (·.serviceId) id (postgresAfter calls).rows) =
        documentsAfter calls := by
  unfold postgresAfter documentsAfter
  generalize hs : ({} : PostgresStudioSearchStore) = s
  generalize hf : (fun _ => none : String → Option ServiceSearchDocument) = f
  have start : (s.rows.map (·.serviceId)).Nodup ∧
      (fun id => Keyed.get? (·.serviceId) id s.rows) = f := by
    subst hs hf
    exact ⟨List.nodup_nil, rfl⟩
  clear hs hf
  induction calls generalizing s f with
  | nil => exact start
  | cons call calls ih =>
    obtain ⟨distinct, rfl⟩ := start
    cases call with
    | set d =>
      refine ih _ _ ⟨Keyed.nodup_put distinct, funext fun id => ?_⟩
      rw [Call.on, Function.update_apply]
      exact Keyed.get?_put
    | delete serviceId =>
      have kept : ((s.deleteServiceDocument serviceId).rows.map (·.serviceId)).Nodup :=
        (List.Sublist.map _ List.filter_sublist).nodup distinct
      refine ih _ _ ⟨kept, funext fun id => ?_⟩
      rw [Call.on, Function.update_apply]
      exact Keyed.get?_filter

/-- Both searches show the same items, page after page: those of the documents that the query
finds, each once and in the order of their names. -/
def SameSearch (c : Builtins) (codec : CursorCodec) (calls : List Call) (q : ServiceSearchQuery) :
    Prop :=
  ∃ items : List ServiceSearchItem,
    Pages.Walk (searchServices c (redisAfter c calls).store q codec) none items ∧
    Pages.Walk (searchServices c ((postgresAfter calls).store c) q codec) none items ∧
    items.Pairwise (fun a b => byName c a b = .lt) ∧
    ∀ d, (∃ item ∈ items, item.document = d) ↔
      documentsAfter calls d.serviceId = some d ∧ q.Finds c d

/-- The searches agree exactly when PostgreSQL knows the terms of every document that is found:
each of them occurs in its name, its id, its environment or its address. -/
theorem search_stores_agree_iff (c : Builtins) (codec : CursorCodec) (calls : List Call)
    (q : ServiceSearchQuery) :
    SameSearch c codec calls q ↔
      ∀ d, documentsAfter calls d.serviceId = some d → q.Finds c d →
        ∀ term ∈ tokenize c q.query, ∃ column ∈ PostgresStudioSearchStore.columns d,
          term.toList <:+: (c.dbLower column).toList := by
  obtain ⟨settled, docs⟩ := redisAfter_settled (c := c) calls
  obtain ⟨distinct, rows⟩ := postgresAfter_rows calls
  have redis := settled.indexed
  have postgres := PostgresStudioSearchStore.indexed (c := c) distinct
  rw [docs] at redis
  rw [rows] at postgres
  have more : ∀ d, documentsAfter calls d.serviceId = some d → q.Finds c d →
      ∀ term ∈ tokenize c q.query, RedisStudioSearchStore.Knows c term d := by
    rintro d - ⟨-, field, hfield, all⟩ term hterm
    obtain ⟨value, hvalue, token⟩ := all term hterm
    have prefixed := (mem_buildPrefixTokens (mem_tokenize hterm).1).mpr token
    refine List.mem_flatMap.mpr ⟨value, ?_, prefixed⟩
    rw [ServiceSearchDocument.fieldValues] at hfield
    simp only [List.mem_cons, List.not_mem_nil, or_false] at hfield
    rcases hfield with rfl | rfl | rfl | rfl
    · simp_all
    · simp_all
    · simp_all
    · simp_all
  refine Iff.trans ?_ (redis.found_eq_iff postgres more)
  constructor
  · rintro ⟨items, first, second, -⟩
    rw [(postgres.walk codec).unique second, (redis.walk codec).unique first]
  · intro same
    refine ⟨found c (redisAfter c calls).store q, redis.walk codec, same ▸ postgres.walk codec,
      redis.sorted_found.imp Std.OrientedCmp.gt_iff_lt.mp, fun d => ?_⟩
    constructor
    · rintro ⟨item, hitem, rfl⟩
      obtain ⟨d, held, shown, passes, -⟩ := redis.mem_found.mp hitem
      rw [document_of_itemOf shown]
      exact ⟨held, passes, isSome_itemOf.mp (Option.isSome_of_eq_some shown)⟩
    · rintro ⟨held, finds⟩
      obtain ⟨item, shown⟩ := Option.isSome_iff_exists.mp (isSome_itemOf.mpr finds.2)
      exact ⟨item, redis.mem_found.mpr ⟨d, held, shown, finds.1, more d held finds⟩,
        document_of_itemOf shown⟩

/-- Texts that are in lower case already. -/
def lowerCase : Builtins where
  lower := id
  lower_token _ _ := rfl
  dbLower := id

/-- A service that only its tag tells from others. -/
def tagged : ServiceSearchDocument where
  serviceId := "payments"
  name := "payments api"
  environment := "prod"
  tags := ["gpu"]
  status := "healthy"
  healthStatus := none
  baseUrl := "http://payments"

def byTag : ServiceSearchQuery where
  query := some "gpu"
  environment := none
  status := none
  health := none
  tag := none
  limit := 50

/-- The only page has no cursor. -/
noncomputable def noCursors : CursorCodec := .ofTable [] Texts.reversible_nil

/-- PostgreSQL does not find a service by its tag. -/
theorem tag_not_found : ¬SameSearch lowerCase noCursors [.set tagged] byTag := by
  rintro ⟨items, redis, postgres, -⟩
  obtain ⟨settled, -⟩ := redisAfter_settled (c := lowerCase) [.set tagged]
  obtain ⟨distinct, -⟩ := postgresAfter_rows [.set tagged]
  have first : found lowerCase (redisAfter lowerCase [.set tagged]).store byTag =
      [⟨tagged, ["tags"]⟩] := by decide +kernel
  have second : found lowerCase ((postgresAfter [.set tagged]).store lowerCase) byTag = [] := by
    decide +kernel
  have none_ := (PostgresStudioSearchStore.indexed distinct).walk noCursors |>.unique postgres
  have one := settled.indexed.walk noCursors |>.unique redis
  rw [first] at one
  rw [second] at none_
  exact absurd (one.trans none_.symm) (List.cons_ne_nil _ _)

end Relayna.Studio.ServiceSearch
