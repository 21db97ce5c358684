import Relayna.Studio.AlertRules
import Relayna.Foundation.Failing
import Mathlib.Data.List.Forall2

/-!
# The exported rules and the preview agree

At one time, the alert of a goal has a result exactly when its preview is `breaching`, and the rule
for missing evidence has one exactly when the preview is neither `breaching` nor `observed`.
-/
namespace Relayna.Studio.AlertRules

open Contracts PromQL

/-- What is assumed of the answers: a vector has each set of labels once, and metrics of one series
have the same labels. -/
structure Answers (env : Env) (q : Queries) : Prop where
  distinct : ∀ t ∈ q.texts, Vector.Unique none (env.given t)
  aligned : ∀ t ∈ q.texts, ∀ u ∈ q.texts, ∀ r s, env.given t = [r] → env.given u = [s] →
    r.signature none = s.signature none

section Rules

variable {env : Env} {goal : Goal} {q : Queries} {g : Labels} {x : String → Number}

/-! ### A metric without a series, or with more than one -/

theorem Answers.given (h : Answers env q) {t : String} (ht : t ∈ q.texts) :
    Distinct env (.given t) := ⟨_, rfl, h.distinct t ht⟩

theorem Distinct.ok {e : Expr} (h : Distinct env e) : ∃ v, e.eval env = .ok v := by
  obtain ⟨v, he, _⟩ := h
  exact ⟨v, he⟩

theorem condition_ok (h : Answers env q) (goal : Goal) :
    ∃ v, (condition goal q).eval env = .ok v := by
  cases q with
  | single value freshness =>
    exact Distinct.ok (((h.given (by simp [Queries.texts])).compareScalar _ _).paren)
  | cohort c =>
    have good := h.given (t := c.good) (by simp [Queries.texts])
    have eligible := h.given (t := c.eligible) (by simp [Queries.texts])
    exact Distinct.ok ((((good.paren.scalarArith _ _).arith eligible.paren _).compareScalar
      _ _).paren)

theorem validity_ok (h : Answers env q) (goal : Goal) :
    (∃ v, (validity goal q).1.eval env = .ok v) ∧
      ∀ e ∈ (validity goal q).2, ∃ v, e.eval env = .ok v := by
  cases q with
  | single value freshness =>
    refine ⟨Distinct.ok (((h.given (by simp [Queries.texts])).compareScalar _ _).paren), ?_⟩
    intro e he
    cases he
  | cohort c =>
    have good := h.given (t := c.good) (by simp [Queries.texts])
    have eligible := h.given (t := c.eligible) (by simp [Queries.texts])
    have start := h.given (t := c.windowStart) (by simp [Queries.texts])
    have stop := h.given (t := c.windowEnd) (by simp [Queries.texts])
    refine ⟨Distinct.ok ((eligible.compareScalar _ _).paren), ?_⟩
    intro e he
    simp only [validity, List.mem_cons, List.not_mem_nil, or_false] at he
    rcases he with rfl | rfl | rfl | rfl
    · exact Distinct.ok ((good.compareScalar _ _).paren)
    · exact Distinct.ok ((good.compare eligible _).paren)
    · exact Distinct.ok ((((stop.paren.arithScalar _ _).abs).compareScalar _ _).paren)
    · exact Distinct.ok (((((stop.paren.arith start.paren _).arithScalar _ _).abs).compareScalar
        _ _).paren)

theorem freshness_mem (q : Queries) : q.freshness ∈ q.texts := by
  cases q <;> simp [Queries.freshness, Queries.texts]

theorem guards_ok (h : Answers env q) (goal : Goal) :
    ∀ c ∈ guards goal q, ∃ v, c.2.eval env = .ok v := by
  intro c hc
  rcases List.mem_append.mp hc with hc | hc
  · rcases List.mem_append.mp hc with hc | hc
    · obtain ⟨e, he, rfl⟩ := List.mem_map.mp hc
      exact (validity_ok h goal).2 e he
    · obtain ⟨t, ht, hc⟩ := List.mem_flatMap.mp hc
      simp only [present, List.mem_cons, List.not_mem_nil, or_false] at hc
      rcases hc with rfl | rfl
      · exact Distinct.ok (((h.given ht).abs.compareScalar _ _).paren)
      · exact ⟨_, rfl⟩
  · have fresh_ := h.given (freshness_mem q)
    simp only [fresh, List.mem_cons, List.not_mem_nil, or_false] at hc
    rcases hc with rfl | rfl
    · exact Distinct.ok ((fresh_.paren.scalarArith _ _).compareScalar _ _).paren
    · exact Distinct.ok (fresh_.compareScalar _ _).paren

/-- The count of what is not one series does not pass. -/
theorem count_nil {t : String} (odd : (env.given t).length ≠ 1) :
    (Expr.paren (.compareScalar .eq (.aggregate .count [] (.given t)) (number 1))).eval env =
      .ok [] := by
  have filtered : ((env.given t).aggregate .count []).compareScalar .eq (.finite 1) = [] := by
    by_cases empty : env.given t = []
    · rw [empty]
      rfl
    · rw [aggregate_count empty]
      simp [Vector.compareScalar, Compare.holds, Number.eq, odd]
  simp only [Expr.eval, Except.map, number, Scalar.eval, filtered]

theorem rules_nil (h : Answers env q) (goal : Goal) {t : String} (ht : t ∈ q.texts)
    (odd : (env.given t).length ≠ 1) :
    (expression goal q).1.eval env = .ok [] ∧ (expression goal q).2.eval env = .ok [] := by
  have fails : ∃ c ∈ guards goal q, c.2.eval env = .ok [] :=
    ⟨_, List.mem_append_left _ (List.mem_append_right _ (List.mem_flatMap.mpr
      ⟨t, ht, List.mem_cons_of_mem _ List.mem_cons_self⟩)), count_nil odd⟩
  constructor
  · refine conjunction_nil (condition_ok h goal) ?_ (.inr ?_)
    · intro c hc
      rcases List.mem_cons.mp hc with rfl | hc
      · exact (validity_ok h goal).1
      · exact guards_ok h goal c hc
    · obtain ⟨c, hc, none_⟩ := fails
      exact ⟨c, List.mem_cons_of_mem _ hc, none_⟩
  · exact conjunction_nil (validity_ok h goal).1 (guards_ok h goal) (.inr fails)

/-! ### Metrics of one series each -/

/-- The cases in which the conditions of the validity pass. -/
def validCases (goal : Goal) (now : ℚ) (x : String → Number) : Queries → Prop × List Prop
  | .single value _ => (Compare.ge.holds (x value) (.finite 0) = true, [])
  | .cohort c =>
    (Compare.gt.holds (x c.eligible) (.finite 0) = true,
      [Compare.ge.holds (x c.good) (.finite 0) = true,
        Compare.le.holds (x c.good) (x c.eligible) = true,
        Compare.le.holds (((x c.windowEnd).sub
          ((Number.finite now).sub (.finite goal.deadlineSeconds))).abs) (.finite 30) = true,
        Compare.le.holds ((((x c.windowEnd).sub (x c.windowStart)).sub
          (.finite goal.windowSeconds)).abs) (.finite 1) = true])

def conditionCase (goal : Goal) (x : String → Number) : Queries → Prop
  | .single value _ => Compare.ge.holds (x value) (.finite goal.threshold) = true
  | .cohort c => Compare.lt.holds (((Number.finite 100).mul (x c.good)).div (x c.eligible))
      (.finite goal.threshold) = true

def freshCases (goal : Goal) (now : ℚ) (evidence : Number) : List Prop :=
  [Compare.le.holds ((Number.finite now).sub evidence) (.finite goal.freshnessSeconds) = true,
    Compare.le.holds evidence (.finite now) = true]

def presentCases (x : Number) : List Prop := [x.abs.lt (.inf false) = true, True]

def guardCases (goal : Goal) (now : ℚ) (x : String → Number) (q : Queries) : List Prop :=
  (validCases goal now x q).2 ++ q.texts.flatMap (fun t => presentCases (x t)) ++
    freshCases goal now (x q.freshness)

theorem tests_condition (h : ∀ t ∈ q.texts, HasValue env (.given t) g (x t)) (goal : Goal) :
    Tests env (condition goal q) g (conditionCase goal x q) := by
  cases q with
  | single value freshness =>
    exact ((h value (by simp [Queries.texts])).compareScalar _ _).paren
  | cohort c =>
    have good := h c.good (by simp [Queries.texts])
    have eligible := h c.eligible (by simp [Queries.texts])
    exact (((good.paren.scalarArith _ _).arith eligible.paren _).compareScalar _ _).paren

theorem tests_validity (h : ∀ t ∈ q.texts, HasValue env (.given t) g (x t)) (goal : Goal) :
    Tests env (validity goal q).1 g (validCases goal env.now x q).1 ∧
      List.Forall₂ (Passes env g) ((validity goal q).2.map (none, ·))
        (validCases goal env.now x q).2 := by
  cases q with
  | single value freshness =>
    exact ⟨((h value (by simp [Queries.texts])).compareScalar _ _).paren, .nil⟩
  | cohort c =>
    have good := h c.good (by simp [Queries.texts])
    have eligible := h c.eligible (by simp [Queries.texts])
    have start := h c.windowStart (by simp [Queries.texts])
    have stop := h c.windowEnd (by simp [Queries.texts])
    refine ⟨(eligible.compareScalar _ _).paren, .cons (.inl ⟨rfl, ?_⟩) (.cons (.inl ⟨rfl, ?_⟩)
      (.cons (.inl ⟨rfl, ?_⟩) (.cons (.inl ⟨rfl, ?_⟩) .nil)))⟩
    · exact (good.compareScalar _ _).paren
    · exact (good.compare eligible _).paren
    · exact (((stop.paren.arithScalar _ _).abs).compareScalar _ _).paren
    · exact ((((stop.paren.arith start.paren _).arithScalar _ _).abs).compareScalar _ _).paren

/-- One series is counted as one. -/
theorem passes_present {t : String} (h : HasValue env (.given t) g (x t)) :
    List.Forall₂ (Passes env g) (present t) (presentCases (x t)) := by
  refine .cons (.inl ⟨rfl, (h.abs.compareScalar _ _).paren⟩) (.cons (.inr ⟨rfl, ?_⟩) .nil)
  obtain ⟨s, hs, -⟩ := h
  have given : env.given t = [s] := Except.ok.inj hs
  refine ⟨[⟨.none, .finite 1⟩], ?_, by simp⟩
  have counted : (env.given t).aggregate .count [] = [⟨.none, .finite 1⟩] := by
    rw [aggregate_count (by rw [given]; exact List.cons_ne_nil _ _), given]
    simp
  have kept : Vector.compareScalar .eq [⟨.none, .finite 1⟩] (.finite 1) =
      [⟨.none, .finite 1⟩] := by
    simp [Vector.compareScalar, Compare.holds, Number.eq]
  simp only [Expr.eval, Except.map, number, Scalar.eval, counted, kept]

theorem passes_guards (h : ∀ t ∈ q.texts, HasValue env (.given t) g (x t)) (goal : Goal) :
    List.Forall₂ (Passes env g) (guards goal q) (guardCases goal env.now x q) := by
  have texts : List.Forall₂ (Passes env g) (q.texts.flatMap present)
      (q.texts.flatMap fun t => presentCases (x t)) := by
    generalize q.texts = texts at h
    induction texts with
    | nil => exact .nil
    | cons t texts ih =>
      rw [List.flatMap_cons, List.flatMap_cons]
      exact List.rel_append (passes_present (h t List.mem_cons_self))
        (ih fun u hu => h u (List.mem_cons_of_mem t hu))
  have evidence := h q.freshness (freshness_mem q)
  refine List.rel_append (List.rel_append (tests_validity h goal).2 texts) ?_
  exact .cons (.inl ⟨rfl, ((evidence.paren.scalarArith _ _).compareScalar _ _).paren⟩)
    (.cons (.inl ⟨rfl, (evidence.compareScalar _ _).paren⟩) .nil)

theorem tests_rules (h : ∀ t ∈ q.texts, HasValue env (.given t) g (x t)) (goal : Goal) :
    Tests env (expression goal q).1 g (conditionCase goal x q ∧
        (validCases goal env.now x q).1 ∧ ∀ p ∈ guardCases goal env.now x q, p) ∧
      Tests env (expression goal q).2 g
        ((validCases goal env.now x q).1 ∧ ∀ p ∈ guardCases goal env.now x q, p) := by
  obtain ⟨valid, _⟩ := tests_validity h goal
  constructor
  · refine ((tests_condition h goal).conjunction (.cons (.inl ⟨rfl, valid⟩)
      (passes_guards h goal))).congr ?_
    rw [List.forall_mem_cons]
  · exact valid.conjunction (passes_guards h goal)

/-! ### The preview -/

def rational : Number → Option ℚ
  | .finite r => some r
  | _ => none

theorem sample_single (s : Sample) : sample [s] = .ok (rational s.value) := by
  rw [sample]
  cases s.value <;> rfl

theorem guardCases_iff {goal : Goal} {now : ℚ} : (∀ p ∈ guardCases goal now x q, p) ↔
    (∀ p ∈ (validCases goal now x q).2, p) ∧ (∀ t ∈ q.texts, ∃ r, x t = .finite r) ∧
      ∀ p ∈ freshCases goal now (x q.freshness), p := by
  simp only [guardCases, List.forall_mem_append, List.mem_flatMap, forall_exists_index, and_imp,
    and_assoc]
  refine and_congr_right fun _ => and_congr_left fun _ => ?_
  constructor
  · intro all t ht
    exact (Number.abs_lt_inf (x t)).mp (all _ t ht List.mem_cons_self)
  · intro finite p t ht hp
    simp only [presentCases, List.mem_cons, List.not_mem_nil, or_false] at hp
    rcases hp with rfl | rfl
    · exact (Number.abs_lt_inf (x t)).mpr (finite t ht)
    · trivial

theorem freshCases_iff {goal : Goal} {now e : ℚ} :
    (∀ p ∈ freshCases goal now (.finite e), p) ↔
      0 ≤ now - e ∧ now - e ≤ goal.freshnessSeconds := by
  simp only [freshCases, List.forall_mem_cons, Number.sub_finite, Compare.holds, Number.le_finite,
    decide_eq_true_eq, List.not_mem_nil, IsEmpty.forall_iff, implies_true, and_true, sub_nonneg]
  exact and_comm

/-- What the preview finds is what the rules find. -/
def Agrees (goal : Goal) (now : ℚ) (x : String → Number) (q : Queries) (state : State) : Prop :=
  (state = .breaching ↔ conditionCase goal x q ∧ (validCases goal now x q).1 ∧
      ∀ p ∈ guardCases goal now x q, p) ∧
    (state = .breaching ∨ state = .observed ↔ (validCases goal now x q).1 ∧
      ∀ p ∈ guardCases goal now x q, p)

theorem agrees_single {goal : Goal} {now v e : ℚ} {value freshness : String}
    (hv : x value = .finite v) (he : x freshness = .finite e) :
    Agrees goal now x (.single value freshness) (judge goal now [v, e]) := by
  have finite : ∀ t ∈ Queries.texts (.single value freshness), ∃ r, x t = .finite r := by
    simp [Queries.texts, hv, he]
  have guards_ : (∀ p ∈ guardCases goal now x (.single value freshness), p) ↔
      0 ≤ now - e ∧ now - e ≤ goal.freshnessSeconds := by
    rw [guardCases_iff, Queries.freshness, he, freshCases_iff]
    exact ⟨fun h => h.2.2, fun h => ⟨by simp [validCases], finite, h⟩⟩
  rw [Agrees, guards_]
  simp only [conditionCase, validCases, hv, Compare.holds, Number.le_finite, decide_eq_true_eq,
    judge]
  by_cases fresh_ : 0 ≤ now - e ∧ now - e ≤ goal.freshnessSeconds
  · rw [if_neg (not_not.mpr fresh_)]
    by_cases negative : v < 0
    · simp [negative, not_le.mpr negative]
    · by_cases reached : goal.threshold ≤ v
      · simp [negative, reached, fresh_, not_lt.mp negative]
      · simp [negative, reached, fresh_, not_lt.mp negative]
  · rw [if_pos fresh_]
    refine ⟨⟨(by simp), fun h => absurd h.2.2 fresh_⟩, ⟨(by simp), fun h => absurd h.2 fresh_⟩⟩

theorem agrees_cohort {goal : Goal} {now good eligible start stop e : ℚ} {c : Cohort}
    (hg : x c.good = .finite good) (hl : x c.eligible = .finite eligible)
    (hs : x c.windowStart = .finite start) (ht : x c.windowEnd = .finite stop)
    (he : x c.freshness = .finite e) :
    Agrees goal now x (.cohort c) (judge goal now [good, eligible, start, stop, e]) := by
  have finite : ∀ t ∈ Queries.texts (.cohort c), ∃ r, x t = .finite r := by
    simp [Queries.texts, hg, hl, hs, ht, he]
  have guards_ : (∀ p ∈ guardCases goal now x (.cohort c), p) ↔
      (0 ≤ good ∧ good ≤ eligible ∧ |stop - (now - goal.deadlineSeconds)| ≤ 30 ∧
        |stop - start - goal.windowSeconds| ≤ 1) ∧
      0 ≤ now - e ∧ now - e ≤ goal.freshnessSeconds := by
    rw [guardCases_iff, Queries.freshness, he, freshCases_iff]
    have cases_ : (∀ p ∈ (validCases goal now x (.cohort c)).2, p) ↔
        0 ≤ good ∧ good ≤ eligible ∧ |stop - (now - goal.deadlineSeconds)| ≤ 30 ∧
          |stop - start - goal.windowSeconds| ≤ 1 := by
      simp only [validCases, hg, hl, hs, ht, Number.sub_finite, Number.abs, Compare.holds,
        Number.le_finite, decide_eq_true_eq, List.forall_mem_cons, List.not_mem_nil,
        IsEmpty.forall_iff, implies_true, and_true]
    rw [cases_]
    exact and_congr_right fun _ => and_iff_right finite
  have first : (validCases goal now x (.cohort c)).1 ↔ 0 < eligible := by
    simp [validCases, hl, Compare.holds, Number.lt]
  rw [Agrees, guards_, first]
  simp only [judge]
  by_cases fresh_ : 0 ≤ now - e ∧ now - e ≤ goal.freshnessSeconds
  · rw [if_neg (not_not.mpr fresh_)]
    by_cases empty : eligible ≤ 0
    · simp [empty, not_lt.mpr empty]
    · have some_ : 0 < eligible := not_le.mp empty
      have condition : conditionCase goal x (.cohort c) ↔
          100 * good / eligible < goal.threshold := by
        have product : (Number.finite 100).mul (.finite good) = .finite (100 * good) := rfl
        simp [conditionCase, hg, hl, product, Number.div_finite _ some_.ne', Compare.holds,
          Number.lt]
      rw [if_neg empty, condition]
      have valid : ¬(good < 0 ∨ eligible < good ∨ 30 < |stop - (now - goal.deadlineSeconds)| ∨
          1 < |stop - start - goal.windowSeconds|) ↔
          0 ≤ good ∧ good ≤ eligible ∧ |stop - (now - goal.deadlineSeconds)| ≤ 30 ∧
            |stop - start - goal.windowSeconds| ≤ 1 := by
        simp only [not_or, not_lt]
      rw [← valid]
      by_cases invalid : good < 0 ∨ eligible < good ∨
          30 < |stop - (now - goal.deadlineSeconds)| ∨ 1 < |stop - start - goal.windowSeconds|
      · simp [invalid]
      · rw [if_neg invalid]
        by_cases below : 100 * good / eligible < goal.threshold <;>
          simp [invalid, below, some_, fresh_]
  · rw [if_pos fresh_]
    refine ⟨⟨(by simp), fun h => absurd h.2.2.2 fresh_⟩, ⟨(by simp), fun h => absurd h.2.2 fresh_⟩⟩

theorem mapM_samples {answer : String → Vector} {texts : List String}
    (h : ∀ t ∈ texts, sample (answer t) = .ok (rational (x t))) :
    (texts.mapM fun t => sample (answer t)) = .ok (texts.map fun t => rational (x t)) := by
  induction texts with
  | nil => rfl
  | cons t texts ih =>
    rw [List.mapM_cons, h t List.mem_cons_self, ih fun u hu => h u (List.mem_cons_of_mem t hu)]
    rfl

theorem mapM_id_none {values : List (Option ℚ)} (h : none ∈ values) : values.mapM id = none := by
  induction values with
  | nil => cases h
  | cons v values ih =>
    rw [List.mapM_cons]
    rcases List.mem_cons.mp h with rfl | later
    · rfl
    · rw [ih later]
      cases v <;> rfl

/-- A metric that has no series, more than one, or a value that is not finite. -/
theorem not_finite_case (goal : Goal) (now : ℚ) {t : String} (ht : t ∈ q.texts)
    (h : ∀ r, x t ≠ .finite r) : ¬∀ p ∈ guardCases goal now x q, p := by
  intro all
  obtain ⟨r, hr⟩ := (guardCases_iff.mp all).2.1 t ht
  exact h r hr

theorem agrees_judge {goal : Goal} {now : ℚ} {r : String → ℚ}
    (h : ∀ t ∈ q.texts, x t = .finite (r t)) :
    Agrees goal now x q (judge goal now (q.texts.map r)) := by
  cases q with
  | single value freshness =>
    exact agrees_single (h value (by simp [Queries.texts])) (h freshness (by simp [Queries.texts]))
  | cohort c =>
    exact agrees_cohort (h c.good (by simp [Queries.texts]))
      (h c.eligible (by simp [Queries.texts])) (h c.windowStart (by simp [Queries.texts]))
      (h c.windowEnd (by simp [Queries.texts])) (h c.freshness (by simp [Queries.texts]))

/-- The branches of the preview after the queries are known. -/
def previewOf (goal : Goal) (now : ℚ) (answer : String → Vector) (q : Queries) : State :=
  match q.texts.mapM fun query => sample (answer query) with
  | .error () => .unavailable
  | .ok values =>
    match values.mapM id with
    | none => .noData
    | some samples => judge goal now samples

theorem previewOf_odd (goal : Goal) (now : ℚ) {t : String} (ht : t ∈ q.texts)
    (odd : (env.given t).length ≠ 1) :
    previewOf goal now env.given q = .unavailable ∨ previewOf goal now env.given q = .noData := by
  unfold previewOf
  cases values : q.texts.mapM fun query => sample (env.given query) with
  | error e => exact .inl rfl
  | ok values_ =>
    right
    obtain ⟨value, hv, asked⟩ := Failing.exists_of_forall₂ (Failing.mapM_ok values).flip ht
    have missing : value = none := by
      cases given : env.given t with
      | nil =>
        rw [given] at asked
        exact (Except.ok.inj asked).symm
      | cons s rest =>
        cases rest with
        | nil => simp [given] at odd
        | cons u rest =>
          rw [given] at asked
          cases asked
    simp only [mapM_id_none (missing ▸ hv)]

theorem previewOf_agrees {goal : Goal} {now : ℚ} (h : ∀ t ∈ q.texts, ∃ s,
    env.given t = [s] ∧ s.value = x t) :
    Agrees goal now x q (previewOf goal now env.given q) := by
  have answered : ∀ t ∈ q.texts, sample (env.given t) = .ok (rational (x t)) := by
    intro t ht
    obtain ⟨s, given, value⟩ := h t ht
    rw [given, sample_single, value]
  rw [previewOf, mapM_samples answered]
  by_cases finite : ∀ t ∈ q.texts, ∃ r, x t = .finite r
  · let r : String → ℚ := fun t => (rational (x t)).getD 0
    have hr : ∀ t ∈ q.texts, x t = .finite (r t) := by
      intro t ht
      obtain ⟨value, found⟩ := finite t ht
      have read : r t = value := by
        simp only [r, found, rational, Option.getD_some]
      rw [read, found]
    have samples : (q.texts.map fun t => rational (x t)).mapM id = some (q.texts.map r) := by
      have each : q.texts.map (fun t => rational (x t)) = (q.texts.map r).map some := by
        rw [List.map_map]
        refine List.map_congr_left fun t ht => ?_
        rw [hr t ht]
        rfl
      rw [each]
      generalize q.texts.map r = values
      induction values with
      | nil => rfl
      | cons v values ih =>
        rw [List.map_cons, List.mapM_cons, ih]
        rfl
    simp only [samples]
    exact agrees_judge hr
  · obtain ⟨t, ht, infinite⟩ : ∃ t ∈ q.texts, ∀ r, x t ≠ .finite r := by
      simpa only [not_forall, not_exists, exists_prop] using finite
    have missing : (none : Option ℚ) ∈ q.texts.map fun t => rational (x t) := by
      refine List.mem_map.mpr ⟨t, ht, ?_⟩
      cases value : x t with
      | finite r => exact absurd value (infinite r)
      | inf s => rfl
      | nan => rfl
    simp only [mapM_id_none missing]
    have never := not_finite_case goal now ht infinite
    exact ⟨⟨(by simp), fun all => absurd all.2.2 never⟩, ⟨(by simp), fun all => absurd all.2 never⟩⟩

/-- What the rules give, for the queries of a goal. -/
theorem expression_agrees (h : Answers env q) (goal : Goal) :
    ∃ v w, (expression goal q).1.eval env = .ok v ∧ (expression goal q).2.eval env = .ok w ∧
      (v ≠ [] ↔ previewOf goal env.now env.given q = .breaching) ∧
      (w ≠ [] ↔ previewOf goal env.now env.given q = .breaching ∨
        previewOf goal env.now env.given q = .observed) := by
  by_cases single_ : ∀ t ∈ q.texts, (env.given t).length = 1
  · have one (t : String) (ht : t ∈ q.texts) : ∃ s, env.given t = [s] :=
      List.length_eq_one_iff.mp (single_ t ht)
    obtain ⟨first, hf⟩ := one q.freshness (freshness_mem q)
    let x : String → Number := fun t => ((env.given t).head?.map (·.value)).getD .nan
    have value {t : String} {s : Sample} (given : env.given t = [s]) : s.value = x t := by
      simp only [x, given, List.head?_cons, Option.map_some, Option.getD_some]
    have values : ∀ t ∈ q.texts, HasValue env (.given t) (first.signature none) (x t) := by
      intro t ht
      obtain ⟨s, given⟩ := one t ht
      have same := h.aligned t ht q.freshness (freshness_mem q) s first given hf
      exact ⟨s, congrArg Except.ok given, same, value given⟩
    have agree : Agrees goal env.now x q (previewOf goal env.now env.given q) :=
      previewOf_agrees fun t ht => by
        obtain ⟨s, given⟩ := one t ht
        exact ⟨s, given, value given⟩
    obtain ⟨⟨v, hv, -, alert⟩, w, hw, -, evidence⟩ := tests_rules values goal
    exact ⟨v, w, hv, hw, alert.trans agree.1.symm, evidence.trans agree.2.symm⟩
  · obtain ⟨t, ht, odd⟩ : ∃ t ∈ q.texts, (env.given t).length ≠ 1 := by
      simpa only [not_forall, exists_prop] using single_
    obtain ⟨alert, evidence⟩ := rules_nil h goal ht odd
    refine ⟨[], [], alert, evidence, ?_⟩
    rcases previewOf_odd goal env.now ht odd with state | state <;>
      simp [state]

end Rules

/-- The rules that are exported for a goal give what its preview finds. -/
theorem rules_agree (env : Env) (goal : Goal) (serviceId : String) (config : MetricsConfig)
    {rules : Rules} (exported : exportGoal goal serviceId (some config) = some rules)
    (answers : Answers env (queries goal (runtimeService config serviceId))) :
    ∃ v w, rules.alert.eval env = .ok v ∧ rules.evidenceMissing.eval env = .ok w ∧
      (v ≠ [] ↔ preview goal serviceId (some config) env.now env.given = .breaching) ∧
      (w ≠ [] ↔ preview goal serviceId (some config) env.now env.given ≠ .breaching ∧
        preview goal serviceId (some config) env.now env.given ≠ .observed) := by
  obtain ⟨v, w, alert, evidence, breaching, shown⟩ := expression_agrees answers goal
  unfold exportGoal at exported
  split_ifs at exported with unconfirmed
  cases exported
  have branch : preview goal serviceId (some config) env.now env.given =
      previewOf goal env.now env.given (queries goal (runtimeService config serviceId)) := by
    rw [preview, if_neg unconfirmed]
    rfl
  refine ⟨v.aggregate .sum [], (w.aggregate .sum []).absent, ?_, ?_, ?_, ?_⟩
  · simp only [exportRules, Expr.eval, alert, Except.map]
  · simp only [exportRules, Expr.eval, evidence, Except.map]
  · rw [branch, ← breaching, not_iff_not]
    exact aggregate_nil .sum
  · rw [branch, ← not_or, ← shown, not_not, not_iff_comm, absent_nil, Ne, aggregate_nil]

/-- Every metric is five, at the time five. -/
def fives : Env where
  now := 5
  given _ := [⟨.none, .finite 5⟩]

theorem fives_answers (q : Queries) : Answers fives q where
  distinct _ _ := List.nodup_singleton _
  aligned _ _ _ _ _ _ hr hs := by
    rw [← List.singleton_inj.mp hr, ← List.singleton_inj.mp hs]

def backlogGoal : Goal where
  kind := .backlogAge
  environment := "prod"
  threshold := 5

theorem rules_agree_backlog :
    preview backlogGoal "svc" (some ⟨none, []⟩) 5 fives.given = .breaching ∧
      ∃ v, (exportRules backlogGoal "svc").alert.eval fives = .ok v ∧ v ≠ [] ∧
        (exportRules backlogGoal "svc").evidenceMissing.eval fives = .ok [] := by
  have breaching : preview backlogGoal "svc" (some ⟨none, []⟩) 5 fives.given = .breaching := by
    show judge backlogGoal 5 [5, 5] = .breaching
    have positive : ¬(5 : ℚ) < 0 := by decide
    simp [judge, backlogGoal, positive]
  obtain ⟨v, w, alert, evidence, fires, missing⟩ :=
    rules_agree fives backlogGoal "svc" ⟨none, []⟩ rfl (fives_answers _)
  have none_ : w = [] := by
    by_contra some_
    exact (missing.mp some_).1 breaching
  exact ⟨breaching, v, alert, fires.mpr breaching, none_ ▸ evidence⟩

end Relayna.Studio.AlertRules
