import Mathlib.Algebra.Order.Field.Rat
import Mathlib.Data.List.Dedup
import Mathlib.Data.List.Sort
import Mathlib.Data.String.Basic

/-!
# PromQL at one time

Instant vectors, the matching of series by their labels, and expressions with their values. A
sample value is a rational, an infinity or not a number. A vector is a list of samples; the order
of the samples has no meaning.

Binary operators match series on all labels but the name, or on the labels that `on` lists. The
side that may not repeat a match is checked, and so is the result: two results with one label set
are an error. Set operators (`and`, `or`) never fail.
-/
namespace PromQL

/-! ### Values -/

inductive Number
  | finite (value : ℚ)
  | inf (negative : Bool)
  | nan
  deriving DecidableEq, Repr

namespace Number

def one : Number := .finite 1

def zero : Number := .finite 0

def neg : Number → Number
  | .finite a => .finite (-a)
  | .inf negative => .inf !negative
  | .nan => .nan

def add : Number → Number → Number
  | .nan, _ | _, .nan => .nan
  | .finite a, .finite b => .finite (a + b)
  | .inf s, .inf t => if s = t then .inf s else .nan
  | .inf s, .finite _ | .finite _, .inf s => .inf s

def sub (a b : Number) : Number := a.add b.neg

def negative : ℚ → Bool := fun a => a < 0

def mul : Number → Number → Number
  | .nan, _ | _, .nan => .nan
  | .finite a, .finite b => .finite (a * b)
  | .inf s, .inf t => .inf (s != t)
  | .inf s, .finite a | .finite a, .inf s => if a = 0 then .nan else .inf (s != negative a)

/-- A zero has no sign here. -/
def div : Number → Number → Number
  | .nan, _ | _, .nan => .nan
  | .finite a, .finite b =>
    if b = 0 then if a = 0 then .nan else .inf (negative a) else .finite (a / b)
  | .inf _, .inf _ => .nan
  | .inf s, .finite a => .inf (s != negative a)
  | .finite _, .inf _ => .finite 0

def abs : Number → Number
  | .finite a => .finite |a|
  | .inf _ => .inf false
  | .nan => .nan

def lt : Number → Number → Bool
  | .nan, _ | _, .nan => false
  | .finite a, .finite b => a < b
  | .inf s, .inf t => s && !t
  | .inf s, .finite _ => s
  | .finite _, .inf s => !s

def eq : Number → Number → Bool
  | .nan, _ => false
  | a, b => a = b

def le (a b : Number) : Bool := a.lt b || a.eq b

end Number

inductive Arith
  | add | sub | mul | div
  deriving DecidableEq, Repr

def Arith.apply : Arith → Number → Number → Number
  | .add => .add
  | .sub => .sub
  | .mul => .mul
  | .div => .div

inductive Compare
  | eq | lt | le | gt | ge
  deriving DecidableEq, Repr

def Compare.holds : Compare → Number → Number → Bool
  | .eq, a, b => a.eq b
  | .lt, a, b => a.lt b
  | .le, a, b => a.le b
  | .gt, a, b => b.lt a
  | .ge, a, b => b.le a

/-! ### Labels -/

/-- The labels of a series, in the order of their names. A label with an empty value is no label. -/
structure Labels where
  entries : List (String × String)
  sorted : entries.Pairwise fun a b => a.1 < b.1
  valued : ∀ entry ∈ entries, entry.2 ≠ ""
  deriving DecidableEq

namespace Labels

def keep (labels : Labels) (p : String → Bool) : Labels where
  entries := labels.entries.filter fun entry => p entry.1
  sorted := labels.sorted.filter _
  valued entry h := labels.valued entry (List.mem_filter.mp h).1

def restrict (labels : Labels) (names : List String) : Labels := labels.keep (· ∈ names)

def nameless (labels : Labels) : Labels := labels.keep (· ≠ "__name__")

def none : Labels := ⟨[], List.Pairwise.nil, fun _ h => absurd h List.not_mem_nil⟩

theorem ext {a b : Labels} (h : a.entries = b.entries) : a = b := by
  cases a
  cases b
  cases h
  rfl

theorem keep_keep (labels : Labels) (p q : String → Bool) :
    (labels.keep p).keep q = labels.keep fun name => p name && q name := by
  refine ext ?_
  show List.filter _ (List.filter _ labels.entries) = _
  rw [List.filter_filter]
  refine List.filter_congr fun entry _ => ?_
  exact Bool.and_comm _ _

theorem restrict_nil (labels : Labels) : labels.restrict [] = none :=
  ext (List.filter_eq_nil_iff.mpr fun entry _ => by simp)

end Labels

structure Sample where
  labels : Labels
  value : Number
  deriving DecidableEq

abbrev Vector := List Sample

/-! ### Operators -/

inductive Failure
  /-- A match is repeated on the side that may not repeat it. -/
  | manyToMany
  /-- Two results have one label set, or a match is repeated on the other side. -/
  | duplicate
  deriving DecidableEq, Repr

/-- The labels on which series match. -/
def signature : Option (List String) → Labels → Labels
  | none, labels => labels.nameless
  | some names, labels => labels.restrict names

def Sample.signature (s : Sample) (on : Option (List String)) : Labels :=
  PromQL.signature on s.labels

namespace Vector

def and (on : Option (List String)) (v w : Vector) : Vector :=
  v.filter fun s => w.any fun t => t.signature on = s.signature on

def or (v w : Vector) : Vector :=
  v ++ w.filter fun t => !v.any fun s => s.signature none = t.signature none

def arithScalar (op : Arith) (v : Vector) (c : Number) : Vector :=
  v.map fun s => ⟨s.labels.nameless, op.apply s.value c⟩

def scalarArith (op : Arith) (c : Number) (v : Vector) : Vector :=
  v.map fun s => ⟨s.labels.nameless, op.apply c s.value⟩

def compareScalar (op : Compare) (v : Vector) (c : Number) : Vector :=
  v.filter fun s => op.holds s.value c

def abs (v : Vector) : Vector := v.map fun s => ⟨s.labels.nameless, s.value.abs⟩

/-- Every series of `v` with the series of `w` that it matches. -/
def matches_ (on : Option (List String)) (v w : Vector) : List (Sample × Sample) :=
  v.filterMap fun s =>
    (w.find? fun t => t.signature on = s.signature on).map fun t => (s, t)

def Unique (on : Option (List String)) (v : Vector) : Prop := (v.map (·.signature on)).Nodup

instance (on : Option (List String)) (v : Vector) : Decidable (Unique on v) :=
  inferInstanceAs (Decidable (List.Nodup _))

/-- One series of each side: what matches is paired. -/
def oneToOne (v w : Vector) : Except Failure (List (Sample × Sample)) :=
  if ¬Unique none w then .error .manyToMany
  else if ¬Unique none ((matches_ none v w).map Prod.fst) then .error .duplicate
  else .ok (matches_ none v w)

def arith (op : Arith) (v w : Vector) : Except Failure Vector :=
  (oneToOne v w).map fun pairs =>
    pairs.map fun pair => ⟨pair.1.labels.nameless, op.apply pair.1.value pair.2.value⟩

def compare (op : Compare) (v w : Vector) : Except Failure Vector :=
  (oneToOne v w).map fun pairs =>
    (pairs.filter fun pair => op.holds pair.1.value pair.2.value).map Prod.fst

end Vector

namespace Vector

variable {on : Option (List String)} {names : List String} {u v w : Vector} {s : Sample}

theorem mem_and : s ∈ v.and on w ↔ s ∈ v ∧ ∃ t ∈ w, t.signature on = s.signature on := by
  simp [Vector.and]

end Vector

inductive Aggregation
  | sum | count
  deriving DecidableEq, Repr

def Aggregation.value : Aggregation → List Number → Number
  | .sum, values => values.foldr .add .zero
  | .count, values => .finite values.length

/-- One sample for each group of series, with the labels of the group. -/
def Vector.aggregate (op : Aggregation) (by_ : List String) (v : Vector) : Vector :=
  (v.map (·.labels.restrict by_)).dedup.map fun labels =>
    ⟨labels, op.value ((v.filter fun s => s.labels.restrict by_ = labels).map (·.value))⟩

namespace Vector

variable {op : Aggregation} {by_ : List String} {v : Vector} {s : Sample}

theorem mem_aggregate : s ∈ v.aggregate op by_ ↔
    (∃ t ∈ v, t.labels.restrict by_ = s.labels) ∧
      s.value = op.value ((v.filter fun t => t.labels.restrict by_ = s.labels).map (·.value)) := by
  simp only [aggregate, List.mem_map, List.mem_dedup]
  constructor
  · rintro ⟨labels, found, rfl⟩
    exact ⟨found, rfl⟩
  · rintro ⟨found, same⟩
    refine ⟨s.labels, found, ?_⟩
    rw [← same]

theorem exists_aggregate (op : Aggregation) (by_ : List String) (h : s ∈ v) :
    ∃ t ∈ v.aggregate op by_, t.labels = s.labels.restrict by_ := by
  let labels := s.labels.restrict by_
  let values := (v.filter fun t => t.labels.restrict by_ = labels).map (·.value)
  exact ⟨⟨labels, op.value values⟩, mem_aggregate.mpr ⟨⟨s, h, rfl⟩, rfl⟩, rfl⟩

end Vector

/-- A sample with the value one if there is nothing. -/
def Vector.absent (v : Vector) : Vector := if v = [] then [⟨.none, .one⟩] else []

/-! ### Expressions -/

inductive Scalar
  | number (value : Number)
  | time
  | sub (a b : Scalar)
  | paren (a : Scalar)
  deriving Repr

inductive Expr
  /-- A subexpression that is not looked into. -/
  | given (text : String)
  | paren (e : Expr)
  | arithScalar (op : Arith) (e : Expr) (c : Scalar)
  | scalarArith (op : Arith) (c : Scalar) (e : Expr)
  | compareScalar (op : Compare) (e : Expr) (c : Scalar)
  | abs (e : Expr)
  | arith (op : Arith) (a b : Expr)
  | compare (op : Compare) (a b : Expr)
  | and (on : Option (List String)) (a b : Expr)
  | or (a b : Expr)
  | aggregate (op : Aggregation) (by_ : List String) (e : Expr)
  | absent (e : Expr)

/-! ### Texts -/

def Arith.text : Arith → String
  | .add => "+"
  | .sub => "-"
  | .mul => "*"
  | .div => "/"

def Compare.text : Compare → String
  | .eq => "=="
  | .lt => "<"
  | .le => "<="
  | .gt => ">"
  | .ge => ">="

def Aggregation.text : Aggregation → String
  | .sum => "sum"
  | .count => "count"

def listed (names : List String) : String := "(" ++ ", ".intercalate names ++ ")"

def infixed (left operator right : String) : String := left ++ " " ++ operator ++ " " ++ right

def Scalar.text (shown : Number → String) : Scalar → String
  | .number value => shown value
  | .time => "time()"
  | .sub a b => infixed (a.text shown) "-" (b.text shown)
  | .paren a => "(" ++ a.text shown ++ ")"

def Expr.text (shown : Number → String) : Expr → String
  | .given text => text
  | .paren e => "(" ++ e.text shown ++ ")"
  | .arithScalar op e c => infixed (e.text shown) op.text (c.text shown)
  | .scalarArith op c e => infixed (c.text shown) op.text (e.text shown)
  | .compareScalar op e c => infixed (e.text shown) op.text (c.text shown)
  | .abs e => "abs(" ++ e.text shown ++ ")"
  | .arith op a b => infixed (a.text shown) op.text (b.text shown)
  | .compare op a b => infixed (a.text shown) op.text (b.text shown)
  | .and none a b => infixed (a.text shown) "and" (b.text shown)
  | .and (some on) a b => infixed (a.text shown) ("and on" ++ listed on) (b.text shown)
  | .or a b => infixed (a.text shown) "or" (b.text shown)
  | .aggregate op [] e => op.text ++ "(" ++ e.text shown ++ ")"
  | .aggregate op by_ e => op.text ++ " by " ++ listed by_ ++ " (" ++ e.text shown ++ ")"
  | .absent e => "absent(" ++ e.text shown ++ ")"

/-! ### Meaning -/

/-- What there is at the time of the evaluation. -/
structure Env where
  now : ℚ
  given : String → Vector

variable (env : Env)

def Scalar.eval : Scalar → Number
  | .number value => value
  | .time => .finite env.now
  | .sub a b => a.eval.sub b.eval
  | .paren a => a.eval

@[simp] def Expr.eval : Expr → Except Failure Vector
  | .given text => .ok (env.given text)
  | .paren e => e.eval
  | .arithScalar op e c => e.eval.map fun v => v.arithScalar op (c.eval env)
  | .scalarArith op c e => e.eval.map fun v => Vector.scalarArith op (c.eval env) v
  | .compareScalar op e c => e.eval.map fun v => v.compareScalar op (c.eval env)
  | .abs e => e.eval.map Vector.abs
  | .arith op a b => a.eval.bind fun v => b.eval.bind fun w => v.arith op w
  | .compare op a b => a.eval.bind fun v => b.eval.bind fun w => v.compare op w
  | .and on a b => a.eval.bind fun v => b.eval.map fun w => v.and on w
  | .or a b => a.eval.bind fun v => b.eval.map fun w => v.or w
  | .aggregate op by_ e => e.eval.map fun v => v.aggregate op by_
  | .absent e => e.eval.map Vector.absent

/-! ### Expressions over one series -/

variable {env : Env} {e a b : Expr} {on : Option (List String)} {g : Labels} {x y : Number}
  {p q : Prop}

/-- The expression has one sample. -/
def HasValue (env : Env) (e : Expr) (g : Labels) (x : Number) : Prop :=
  ∃ s : Sample, e.eval env = .ok [s] ∧ s.signature none = g ∧ s.value = x

/-- What is left of the expression are series with these labels, and something is left in the one
case. -/
def Tests (env : Env) (e : Expr) (g : Labels) (p : Prop) : Prop :=
  ∃ v, e.eval env = .ok v ∧ (∀ s ∈ v, s.signature none = g) ∧ (v ≠ [] ↔ p)

theorem signature_nameless (labels : Labels) (value : Number) :
    (⟨labels.nameless, value⟩ : Sample).signature none = labels.nameless := by
  rw [Sample.signature, signature, Labels.nameless, Labels.nameless, Labels.keep_keep]
  simp

theorem HasValue.paren (h : HasValue env e g x) : HasValue env (.paren e) g x := h

theorem HasValue.arithScalar (h : HasValue env e g x) (op : Arith) (c : Scalar) :
    HasValue env (.arithScalar op e c) g (op.apply x (c.eval env)) := by
  obtain ⟨s, he, rfl, rfl⟩ := h
  exact ⟨_, by rw [Expr.eval, he]; rfl, signature_nameless _ _, rfl⟩

theorem HasValue.scalarArith (h : HasValue env e g x) (op : Arith) (c : Scalar) :
    HasValue env (.scalarArith op c e) g (op.apply (c.eval env) x) := by
  obtain ⟨s, he, rfl, rfl⟩ := h
  exact ⟨_, by rw [Expr.eval, he]; rfl, signature_nameless _ _, rfl⟩

theorem HasValue.abs (h : HasValue env e g x) : HasValue env (.abs e) g x.abs := by
  obtain ⟨s, he, rfl, rfl⟩ := h
  exact ⟨_, by rw [Expr.eval, he]; rfl, signature_nameless _ _, rfl⟩

theorem matches_single {s t : Sample} (same : t.signature none = s.signature none) :
    Vector.oneToOne [s] [t] = .ok [(s, t)] := by
  have found : Vector.matches_ none [s] [t] = [(s, t)] := by
    simp [Vector.matches_, same]
  have single (u : Sample) : Vector.Unique none [u] := List.nodup_singleton _
  rw [Vector.oneToOne, if_neg (not_not.mpr (single t)), found]
  exact if_neg (not_not.mpr (single s))

theorem HasValue.arith (ha : HasValue env a g x) (hb : HasValue env b g y) (op : Arith) :
    HasValue env (.arith op a b) g (op.apply x y) := by
  obtain ⟨s, he, rfl, rfl⟩ := ha
  obtain ⟨t, hf, same, rfl⟩ := hb
  refine ⟨⟨s.labels.nameless, op.apply s.value t.value⟩, ?_, signature_nameless _ _, rfl⟩
  rw [Expr.eval, he, Except.bind, hf, Except.bind, Vector.arith, matches_single same]
  rfl

theorem Tests.paren (h : Tests env e g p) : Tests env (.paren e) g p := h

theorem HasValue.compareScalar (h : HasValue env e g x) (op : Compare) (c : Scalar) :
    Tests env (.compareScalar op e c) g (op.holds x (c.eval env) = true) := by
  obtain ⟨s, he, rfl, rfl⟩ := h
  refine ⟨_, by rw [Expr.eval, he]; rfl, ?_, ?_⟩
  · intro t ht
    obtain rfl := List.mem_singleton.mp (List.mem_filter.mp ht).1
    rfl
  · cases held : op.holds s.value (c.eval env) <;> simp [Vector.compareScalar, held]

theorem HasValue.compare (ha : HasValue env a g x) (hb : HasValue env b g y) (op : Compare) :
    Tests env (.compare op a b) g (op.holds x y = true) := by
  obtain ⟨s, he, rfl, rfl⟩ := ha
  obtain ⟨t, hf, same, rfl⟩ := hb
  refine ⟨([(s, t)].filter fun pair => op.holds pair.1.value pair.2.value).map Prod.fst, ?_, ?_, ?_⟩
  · rw [Expr.eval, he, Except.bind, hf, Except.bind, Vector.compare, matches_single same]
    rfl
  · intro u hu
    obtain ⟨pair, hp, rfl⟩ := List.mem_map.mp hu
    obtain rfl := List.mem_singleton.mp (List.mem_filter.mp hp).1
    rfl
  · cases held : op.holds s.value t.value <;> simp [held]

theorem Tests.and (ha : Tests env a g p) (hb : Tests env b g q) :
    Tests env (.and none a b) g (p ∧ q) := by
  obtain ⟨v, he, left, hp⟩ := ha
  obtain ⟨w, hf, right, hq⟩ := hb
  refine ⟨v.and none w, by rw [Expr.eval, he, Except.bind, hf]; rfl, ?_, ?_⟩
  · exact fun s hs => left s (Vector.mem_and.mp hs).1
  · rw [← hp, ← hq]
    constructor
    · intro some_
      obtain ⟨s, hs⟩ := List.exists_mem_of_ne_nil _ some_
      obtain ⟨hs, t, ht, -⟩ := Vector.mem_and.mp hs
      exact ⟨List.ne_nil_of_mem hs, List.ne_nil_of_mem ht⟩
    · rintro ⟨hv, hw⟩
      obtain ⟨s, hs⟩ := List.exists_mem_of_ne_nil _ hv
      obtain ⟨t, ht⟩ := List.exists_mem_of_ne_nil _ hw
      have same := (right t ht).trans (left s hs).symm
      exact List.ne_nil_of_mem (Vector.mem_and.mpr ⟨hs, t, ht, same⟩)

/-- `and on()` asks only whether there is something on the right. -/
theorem and_on_nil {v w : Vector} :
    v.and (some []) w = if w = [] then [] else v := by
  have same (s t : Sample) : t.signature (some []) = s.signature (some []) := by
    rw [Sample.signature, Sample.signature, signature, signature, Labels.restrict_nil,
      Labels.restrict_nil]
  cases w with
  | nil => simp [Vector.and]
  | cons t w =>
    rw [if_neg (List.cons_ne_nil t w)]
    refine List.filter_eq_self.mpr fun s _ => List.any_eq_true.mpr ⟨t, List.mem_cons_self, ?_⟩
    exact decide_eq_true (same s t)

theorem Tests.and_on_nil {w : Vector} (ha : Tests env a g p) (hb : b.eval env = .ok w) :
    Tests env (.and (some []) a b) g (p ∧ w ≠ []) := by
  obtain ⟨v, he, left, hp⟩ := ha
  refine ⟨if w = [] then [] else v, ?_, ?_, ?_⟩
  · rw [Expr.eval, he, Except.bind, hb, Except.map, PromQL.and_on_nil]
  · intro s hs
    split at hs
    · cases hs
    · exact left s hs
  · by_cases empty : w = [] <;> simp [empty, hp]

theorem Tests.congr (h : Tests env e g p) (same : p ↔ q) : Tests env e g q := by
  obtain ⟨v, he, labels, hp⟩ := h
  exact ⟨v, he, labels, hp.trans same⟩

/-- A sum over everything is there where something is. -/
theorem aggregate_nil (op : Aggregation) {v : Vector} : v.aggregate op [] = [] ↔ v = [] := by
  constructor
  · intro none_
    by_contra some_
    obtain ⟨s, hs⟩ := List.exists_mem_of_ne_nil _ some_
    obtain ⟨t, ht, -⟩ := Vector.exists_aggregate op [] hs
    rw [none_] at ht
    cases ht
  · rintro rfl
    rfl

theorem absent_nil {v : Vector} : v.absent = [] ↔ v ≠ [] := by
  by_cases empty : v = [] <;> simp [Vector.absent, empty]

/-- Without labels to group by, a count is the number of samples. -/
theorem aggregate_count {v : Vector} (some_ : v ≠ []) :
    v.aggregate .count [] = [⟨.none, .finite v.length⟩] := by
  have groups : (v.map (·.labels.restrict [])).dedup = [.none] := by
    have constant : v.map (·.labels.restrict []) = List.replicate v.length .none := by
      rw [List.eq_replicate_iff]
      refine ⟨List.length_map _, fun labels h => ?_⟩
      obtain ⟨s, _, rfl⟩ := List.mem_map.mp h
      exact s.labels.restrict_nil
    rw [constant]
    exact List.replicate_dedup (by simpa using some_)
  have all : (v.filter fun s => s.labels.restrict [] = Labels.none) = v := by
    refine List.filter_eq_self.mpr fun s _ => ?_
    exact decide_eq_true s.labels.restrict_nil
  rw [Vector.aggregate, groups, List.map_singleton, all]
  simp [Aggregation.value]

/-! ### Expressions whose series differ in more than the name -/

/-- No two samples have one set of labels besides the name. -/
def Distinct (env : Env) (e : Expr) : Prop := ∃ v, e.eval env = .ok v ∧ Vector.Unique none v

theorem unique_map_nameless {v : Vector} (f : Sample → Number) (h : Vector.Unique none v) :
    Vector.Unique none (v.map fun s => ⟨s.labels.nameless, f s⟩) := by
  have same : (v.map fun s => (⟨s.labels.nameless, f s⟩ : Sample)).map (·.signature none) =
      v.map (·.signature none) := by
    rw [List.map_map]
    exact List.map_congr_left fun s _ => signature_nameless s.labels (f s)
  rw [Vector.Unique, same]
  exact h

theorem matches_fst (on : Option (List String)) (v w : Vector) :
    (Vector.matches_ on v w).map Prod.fst =
      v.filter fun s => (w.find? fun t => t.signature on = s.signature on).isSome := by
  rw [Vector.matches_]
  induction v with
  | nil => rfl
  | cons s v ih =>
    rw [List.filterMap_cons, List.filter_cons]
    cases w.find? fun t => t.signature on = s.signature on with
    | none => simpa using ih
    | some t => simpa using ih

theorem oneToOne_ok {v w : Vector} (hv : Vector.Unique none v) (hw : Vector.Unique none w) :
    Vector.oneToOne v w = .ok (Vector.matches_ none v w) := by
  have left : Vector.Unique none ((Vector.matches_ none v w).map Prod.fst) := by
    rw [matches_fst]
    exact hv.sublist (List.filter_sublist.map _)
  rw [Vector.oneToOne, if_neg (not_not.mpr hw), if_neg (not_not.mpr left)]

theorem Distinct.paren (h : Distinct env e) : Distinct env (.paren e) := h

theorem Distinct.arithScalar (h : Distinct env e) (op : Arith) (c : Scalar) :
    Distinct env (.arithScalar op e c) := by
  obtain ⟨v, he, unique⟩ := h
  exact ⟨_, by rw [Expr.eval, he]; rfl, unique_map_nameless _ unique⟩

theorem Distinct.scalarArith (h : Distinct env e) (op : Arith) (c : Scalar) :
    Distinct env (.scalarArith op c e) := by
  obtain ⟨v, he, unique⟩ := h
  exact ⟨_, by rw [Expr.eval, he]; rfl, unique_map_nameless _ unique⟩

theorem Distinct.abs (h : Distinct env e) : Distinct env (.abs e) := by
  obtain ⟨v, he, unique⟩ := h
  exact ⟨_, by rw [Expr.eval, he]; rfl, unique_map_nameless _ unique⟩

theorem Distinct.compareScalar (h : Distinct env e) (op : Compare) (c : Scalar) :
    Distinct env (.compareScalar op e c) := by
  obtain ⟨v, he, unique⟩ := h
  exact ⟨_, by rw [Expr.eval, he]; rfl, unique.sublist (List.filter_sublist.map _)⟩

theorem Distinct.arith (ha : Distinct env a) (hb : Distinct env b) (op : Arith) :
    Distinct env (.arith op a b) := by
  obtain ⟨v, he, left⟩ := ha
  obtain ⟨w, hf, right⟩ := hb
  refine ⟨_, by rw [Expr.eval, he, Except.bind, hf, Except.bind, Vector.arith,
    oneToOne_ok left right]; rfl, ?_⟩
  have same : ((Vector.matches_ none v w).map fun pair =>
      (⟨pair.1.labels.nameless, op.apply pair.1.value pair.2.value⟩ : Sample)).map
        (·.signature none) =
      ((Vector.matches_ none v w).map Prod.fst).map (·.signature none) := by
    rw [List.map_map, List.map_map]
    exact List.map_congr_left fun pair _ => signature_nameless pair.1.labels _
  rw [Vector.Unique, same, matches_fst]
  exact left.sublist (List.filter_sublist.map _)

theorem Distinct.compare (ha : Distinct env a) (hb : Distinct env b) (op : Compare) :
    Distinct env (.compare op a b) := by
  obtain ⟨v, he, left⟩ := ha
  obtain ⟨w, hf, right⟩ := hb
  refine ⟨_, by rw [Expr.eval, he, Except.bind, hf, Except.bind, Vector.compare,
    oneToOne_ok left right]; rfl, ?_⟩
  have kept : (((Vector.matches_ none v w).filter fun pair =>
      op.holds pair.1.value pair.2.value).map Prod.fst).Sublist v := by
    have pairs := (List.filter_sublist (p := fun pair : Sample × Sample =>
      op.holds pair.1.value pair.2.value) (l := Vector.matches_ none v w)).map Prod.fst
    rw [matches_fst] at pairs
    exact pairs.trans List.filter_sublist
  exact left.sublist (kept.map _)

/-! ### Conjunctions -/

/-- `e and …`, one condition after another. -/
def conjunction (e : Expr) (conditions : List (Option (List String) × Expr)) : Expr :=
  conditions.foldl (fun e condition => .and condition.1 e condition.2) e

/-- Every part has a value, and one of them is empty: so is the whole. -/
theorem conjunction_nil {conditions : List (Option (List String) × Expr)}
    (he : ∃ v, e.eval env = .ok v) (hc : ∀ c ∈ conditions, ∃ w, c.2.eval env = .ok w)
    (empty : e.eval env = .ok [] ∨ ∃ c ∈ conditions, c.2.eval env = .ok []) :
    (conjunction e conditions).eval env = .ok [] := by
  induction conditions generalizing e with
  | nil =>
    rcases empty with first | ⟨c, hc, -⟩
    · exact first
    · cases hc
  | cons c conditions ih =>
    obtain ⟨v, hv⟩ := he
    obtain ⟨w, hw⟩ := hc c List.mem_cons_self
    have joined : (Expr.and c.1 e c.2).eval env = .ok (v.and c.1 w) := by
      rw [Expr.eval, hv, Except.bind, hw]
      rfl
    refine ih ⟨_, joined⟩ (fun d hd => hc d (List.mem_cons_of_mem _ hd)) ?_
    rcases empty with first | ⟨d, hd, none_⟩
    · obtain rfl : v = [] := Except.ok.inj (hv.symm.trans first)
      exact .inl joined
    · rcases List.mem_cons.mp hd with rfl | later
      · obtain rfl : w = [] := Except.ok.inj (hw.symm.trans none_)
        left
        rw [joined]
        simp [Vector.and]
      · exact .inr ⟨d, later, none_⟩

/-- A condition that series with these labels pass in the one case. -/
def Passes (env : Env) (g : Labels) (c : Option (List String) × Expr) (p : Prop) : Prop :=
  (c.1 = none ∧ Tests env c.2 g p) ∨
    (c.1 = some [] ∧ ∃ w, c.2.eval env = .ok w ∧ (w ≠ [] ↔ p))

theorem Tests.conjunction {conditions : List (Option (List String) × Expr)} {cases_ : List Prop}
    (he : Tests env e g p) (hc : List.Forall₂ (Passes env g) conditions cases_) :
    Tests env (conjunction e conditions) g (p ∧ ∀ q ∈ cases_, q) := by
  induction hc generalizing e p with
  | nil => exact he.congr (by simp)
  | @cons c q conditions cases_ pass _ ih =>
    have first : Tests env (.and c.1 e c.2) g (p ∧ q) := by
      rcases pass with ⟨on, test⟩ | ⟨on, w, hw, left⟩
      · rw [on]
        exact he.and test
      · rw [on, ← left]
        exact he.and_on_nil hw
    refine (ih first).congr ?_
    rw [List.forall_mem_cons, and_assoc]

/-! ### Comparisons of finite values -/

theorem Number.le_finite (a b : ℚ) : (Number.finite a).le (.finite b) = decide (a ≤ b) := by
  rw [Bool.eq_iff_iff]
  simp [Number.le, Number.lt, Number.eq, le_iff_lt_or_eq]

theorem Number.sub_finite (a b : ℚ) : (Number.finite a).sub (.finite b) = .finite (a - b) := by
  rw [sub_eq_add_neg]
  rfl

theorem Number.div_finite (a : ℚ) {b : ℚ} (h : b ≠ 0) :
    (Number.finite a).div (.finite b) = .finite (a / b) := by
  rw [Number.div, if_neg h]

/-- The test that a value is neither an infinity nor not a number. -/
theorem Number.abs_lt_inf (a : Number) : a.abs.lt (.inf false) = true ↔ ∃ q, a = .finite q := by
  cases a <;> simp [Number.abs, Number.lt]

end PromQL
