import Mathlib.Algebra.Order.Floor.Semiring
import Mathlib.Data.Int.Log
import Mathlib.Data.Rat.Floor
import Mathlib.Tactic.Linarith
import Mathlib.Tactic.NormNum
import Mathlib.Tactic.Positivity
import Relayna.Foundation.Python

/-!
# Doubles and the times they stand for

What `float` and the division of integers give: the double nearest to a rational number. Finite
doubles are kept as the rational numbers they are, and a number too large for them is an overflow.
`datetime.fromtimestamp` counts the microseconds of such a number and fails in three ways: the
seconds do not fit the platform's type, `gmtime` refuses them, or their year is not one of 1 to
9999.
-/
namespace Doubles

open Python

/-! ## Rounding -/

/-- The nearest integer; of two of them, the even one. -/
def roundEven (q : ℚ) : ℤ :=
  if q - ⌊q⌋ < 1 / 2 then ⌊q⌋
  else if 1 / 2 < q - ⌊q⌋ then ⌊q⌋ + 1
  else if ⌊q⌋ % 2 = 0 then ⌊q⌋
  else ⌊q⌋ + 1

/-- The exponent of the last bit of the double nearest to a number. -/
def exponent (q : ℚ) : ℤ := max (Int.log 2 |q| - 52) (-1074)

def nearest (q : ℚ) : ℚ := roundEven (q / 2 ^ exponent q) * 2 ^ exponent q

/-- The nearest double, unless that is an overflow. -/
def double (q : ℚ) : Option ℚ := if |nearest q| < 2 ^ 1024 then some (nearest q) else none

theorem abs_roundEven_sub_le (q : ℚ) : |(roundEven q : ℚ) - q| ≤ 1 / 2 := by
  have low := Int.floor_le q
  have high := Int.lt_floor_add_one q
  rw [roundEven, abs_le]
  split_ifs <;> push_cast <;> constructor <;> linarith

theorem abs_nearest_sub_le (q : ℚ) : |nearest q - q| ≤ 2 ^ exponent q / 2 := by
  have unit : (0 : ℚ) < 2 ^ exponent q := zpow_pos (by norm_num) _
  have parts : nearest q - q =
      ((roundEven (q / 2 ^ exponent q) : ℚ) - q / 2 ^ exponent q) * 2 ^ exponent q := by
    rw [nearest, sub_mul, div_mul_cancel₀ _ unit.ne']
  rw [parts, abs_mul, abs_of_pos unit]
  calc _ ≤ 1 / 2 * (2 : ℚ) ^ exponent q :=
        mul_le_mul_of_nonneg_right (abs_roundEven_sub_le _) unit.le
    _ = _ := by ring

/-- A number below `2 ^ k` is rounded by less than the last bit there. -/
theorem abs_nearest_sub_le_of_lt {q : ℚ} {k : ℤ} (small : |q| < 2 ^ k) (large : 1 ≤ k) :
    |nearest q - q| ≤ 2 ^ (k - 53) / 2 := by
  have bits : exponent q ≤ k - 53 := by
    rw [exponent, max_le_iff]
    refine ⟨?_, by omega⟩
    by_cases zero : q = 0
    · rw [zero, abs_zero, Int.log_zero_right]
      omega
    · have := (Int.lt_zpow_iff_log_lt (b := 2) (by norm_num) (abs_pos.mpr zero)).mp small
      omega
  refine (abs_nearest_sub_le q).trans ?_
  have := zpow_le_zpow_right₀ (a := (2 : ℚ)) (by norm_num) bits
  linarith

/-! ## `float` -/

inductive PyError where
  | attributeError
  | typeError
  | valueError
  | overflowError
  | osError
  deriving DecidableEq, Repr

inductive Double where
  | nan
  | inf (negative : Bool)
  | finite (q : ℚ)
  deriving DecidableEq, Repr

def Double.ofFloat : Python.Float → Double
  | .nan => .nan
  | .inf negative => .inf negative
  | .finite f => .finite (f.mantissa * 2 ^ f.exponent)

/-- A number that was written; too large a one is infinite. -/
def Double.ofWritten (q : ℚ) : Double :=
  match double q with
  | some d => .finite d
  | none => .inf (q < 0)

/-- The number of a run of digits, and how many there are. -/
def digitsOf : List Char → Option (Nat × Nat)
  | [] => some (0, 0)
  | cs => (digitRun decimalDigit cs).map fun ds =>
      (ds.foldl (fun n d => 10 * n + d) 0, ds.length)

def signOf : List Char → Bool × List Char
  | '-' :: cs => (true, cs)
  | '+' :: cs => (false, cs)
  | cs => (false, cs)

/-- What stands after the `e` of a number. -/
def exponentOf : List Char → Option Int
  | [] => none
  | cs =>
    match (signOf cs).2 with
    | [] => none
    | ds => (digitsOf ds).map fun n => if (signOf cs).1 then -(n.1 : Int) else n.1

def isExponentMark (c : Char) : Bool := c == 'e' || c == 'E'

/-- An unsigned decimal number. -/
def decimalOf (cs : List Char) : Option ℚ := do
  let mantissa := cs.takeWhile (!isExponentMark ·)
  let power ← match cs.dropWhile (!isExponentMark ·) with
    | [] => some 0
    | _ :: rest => exponentOf rest
  let whole ← digitsOf (mantissa.takeWhile (· != '.'))
  let fraction ← digitsOf ((mantissa.dropWhile (· != '.')).drop 1)
  if whole.2 + fraction.2 = 0 then none
  else some ((whole.1 * 10 ^ fraction.2 + fraction.1 : Nat) * (10 : ℚ) ^ (power - fraction.2))

/-- `float` of a text. -/
def floatOfString (s : String) : Option Double :=
  let (negative, cs) := signOf (stripChars (fun c => asciiSpace c || unicodeSpace c) s.toList)
  let word := String.ofList (cs.map Char.toLower)
  if word = "inf" ∨ word = "infinity" then some (.inf negative)
  else if word = "nan" then some .nan
  else (decimalOf cs).map fun q => .ofWritten (if negative then -q else q)

/-- `float(value)`. Only an integer can be too large. -/
def toFloat : Value → Except PyError Double
  | .bool b => .ok (.finite (if b then 1 else 0))
  | .int i => if fitsFloat i then .ok (.finite (nearest i)) else .error .overflowError
  | .float f => .ok (.ofFloat f)
  | .decimal unscaled scale => .ok (.ofWritten (unscaled / 10 ^ scale))
  | .str s => ((floatOfString s).map Except.ok).getD (.error .valueError)
  | .bytes b =>
    ((floatOfString (String.ofList (b.map fun x => Char.ofNat x.toNat))).map Except.ok).getD
      (.error .valueError)
  | .none | .datetime _ | .list _ | .dict _ => .error .typeError

/-- `n / d` of two integers. -/
def trueDiv (n d : Int) : Except PyError ℚ :=
  match double (n / d) with
  | some q => .ok q
  | none => .error .overflowError

/-! ## Times -/

/-- The seconds that `gmtime` takes. -/
structure Platform where
  first : Int
  last : Int
  first_le : first ≤ -62135596800
  le_last : 253402300799 ≤ last

/-- The microseconds of a number of seconds: the fraction is scaled and rounded. -/
def microseconds (t : ℚ) : Int :=
  let whole := if 0 ≤ t then ⌊t⌋ else ⌈t⌉
  whole * 1000000 + roundEven (nearest ((t - whole) * 1000000))

/-- The time of a number of seconds and microseconds. -/
def dated (p : Platform) (us : Int) : Except PyError Int :=
  let seconds := us / 1000000
  if seconds < -2 ^ 63 ∨ 2 ^ 63 ≤ seconds then .error .overflowError
  else if seconds < p.first ∨ p.last < seconds then .error .osError
  else if seconds < -62135596800 ∨ 253402300799 < seconds then .error .valueError
  else .ok us

/-- `datetime.fromtimestamp(t, tz=UTC)`, in microseconds since the epoch. -/
def fromtimestamp (p : Platform) : Double → Except PyError Int
  | .nan => .error .valueError
  | .inf _ => .error .overflowError
  | .finite t => dated p (microseconds t)

/-- A time of the years 1 to 9999. -/
def InYears (us : Int) : Prop := -62135596800 ≤ us / 1000000 ∧ us / 1000000 ≤ 253402300799

instance (us : Int) : Decidable (InYears us) := inferInstanceAs (Decidable (_ ∧ _))

variable {p : Platform} {us : Int}

theorem dated_ok_iff : dated p us = .ok us ↔ InYears us := by
  have := p.first_le
  have := p.le_last
  rw [dated, InYears]
  split_ifs with a b c
  · simp only [reduceCtorEq, false_iff]
    omega
  · simp only [reduceCtorEq, false_iff]
    omega
  · simp only [reduceCtorEq, false_iff]
    omega
  · simp only [true_iff]
    omega

theorem dated_of_ok {t : Int} (h : dated p us = .ok t) : t = us := by
  rw [dated] at h
  split_ifs at h
  cases h
  rfl

theorem dated_isOk_iff : (∃ t, dated p us = .ok t) ↔ InYears us := by
  rw [← dated_ok_iff (p := p)]
  exact ⟨fun ⟨t, ok⟩ => dated_of_ok ok ▸ ok, fun ok => ⟨us, ok⟩⟩

/-- The microseconds are those of the number, to the next one. -/
theorem abs_microseconds_sub_lt (t : ℚ) : |(microseconds t : ℚ) - t * 1000000| < 1 := by
  have rounds {whole : ℤ} (below : |(t - whole) * 1000000| < 2 ^ (20 : ℤ)) :
      |((whole * 1000000 + roundEven (nearest ((t - whole) * 1000000)) : ℤ) : ℚ) - t * 1000000| <
        1 := by
    have split : (whole : ℚ) * 1000000 = t * 1000000 - (t - whole) * 1000000 := by ring
    generalize (t - whole) * 1000000 = part at below split
    have rounded := abs_le.mp (abs_roundEven_sub_le (nearest part))
    have near := abs_le.mp (abs_nearest_sub_le_of_lt below (by norm_num))
    norm_num at near
    push_cast
    rw [split, abs_lt]
    constructor <;> linarith
  rw [microseconds]
  split_ifs with sign
  · have low := Int.floor_le t
    have high := Int.lt_floor_add_one t
    refine rounds (abs_lt.mpr ⟨?_, ?_⟩)
    · linarith [show (0 : ℚ) < 2 ^ (20 : ℤ) by norm_num]
    · linarith [show (1000000 : ℚ) < 2 ^ (20 : ℤ) by norm_num]
  · have low := Int.ceil_lt_add_one t
    have high := Int.le_ceil t
    refine rounds (abs_lt.mpr ⟨?_, ?_⟩)
    · linarith [show (1000000 : ℚ) < 2 ^ (20 : ℤ) by norm_num]
    · linarith [show (0 : ℚ) < 2 ^ (20 : ℤ) by norm_num]

theorem double_of_lt {q : ℚ} (small : |q| < 2 ^ (71 : ℤ)) : double q = some (nearest q) := by
  have near := abs_nearest_sub_le_of_lt small (by norm_num)
  have large := abs_sub_abs_le_abs_sub (nearest q) q
  have fits : |nearest q| < 2 ^ 1024 := by
    calc |nearest q| ≤ |q| + 2 ^ ((71 : ℤ) - 53) / 2 := by linarith
      _ ≤ 2 ^ (71 : ℤ) + 2 ^ ((71 : ℤ) - 53) / 2 := by linarith
      _ < 2 ^ 72 := by norm_num
      _ ≤ 2 ^ 1024 := pow_le_pow_right₀ (by norm_num) (by norm_num)
  rw [double, if_pos fits]

/-- A number is not more than twice the double nearest to it, unless it is less than one. -/
theorem abs_le_two_mul_abs_nearest {q : ℚ} (large : 1 ≤ |q|) : |q| ≤ 2 * |nearest q| := by
  have positive : 0 < |q| := by linarith
  have bits : exponent q = Int.log 2 |q| - 52 := by
    have : 0 ≤ Int.log 2 |q| := by
      rw [← Int.zpow_le_iff_le_log (by norm_num) positive]
      simpa using large
    rw [exponent, max_eq_left (by omega)]
  have near := abs_nearest_sub_le q
  have scaled : (2 : ℚ) ^ exponent q ≤ |q| := by
    calc (2 : ℚ) ^ exponent q ≤ 2 ^ Int.log 2 |q| :=
          zpow_le_zpow_right₀ (by norm_num) (by omega)
      _ ≤ |q| := Int.zpow_log_le_self (by norm_num) positive
  have apart := abs_sub_abs_le_abs_sub q (nearest q)
  rw [abs_sub_comm] at apart
  linarith

/-- A number of nanoseconds that has a time is not very large. -/
theorem abs_lt_of_inYears {ns : Int} {t : ℚ} (divided : trueDiv ns 1000000000 = .ok t)
    (years : InYears (microseconds t)) : |(ns : ℚ)| < 2 ^ (70 : ℤ) := by
  have nearestTo : t = nearest (ns / 1000000000) := by
    rw [trueDiv, double] at divided
    push_cast at divided
    split_ifs at divided
    cases divided
    rfl
  have counted := abs_lt.mp (abs_microseconds_sub_lt t)
  obtain ⟨first, last⟩ := years
  have low : (-62135596800000000 : ℚ) ≤ microseconds t := by
    have : -62135596800000000 ≤ microseconds t := by omega
    exact mod_cast this
  have high : (microseconds t : ℚ) ≤ 253402300800000000 := by
    have : microseconds t ≤ 253402300800000000 := by omega
    exact mod_cast this
  have bounded : |t| ≤ 253402300801 := abs_le.mpr ⟨by linarith, by linarith⟩
  have scaled : |(ns : ℚ)| = |(ns : ℚ) / 1000000000| * 1000000000 := by
    rw [abs_div, abs_of_pos (show (0 : ℚ) < 1000000000 by norm_num),
      div_mul_cancel₀ _ (by norm_num)]
  rw [scaled]
  norm_num
  by_cases large : 1 ≤ |(ns : ℚ) / 1000000000|
  · have := abs_le_two_mul_abs_nearest large
    rw [← nearestTo] at this
    linarith
  · linarith

/-- The difference of two times can be divided. -/
theorem trueDiv_sub {a b : Int} (ha : |(a : ℚ)| < 2 ^ (70 : ℤ)) (hb : |(b : ℚ)| < 2 ^ (70 : ℤ)) :
    ∃ q, trueDiv (a - b) 1000000 = .ok q := by
  have apart : |((a - b : Int) : ℚ) / ((1000000 : Int) : ℚ)| < 2 ^ (71 : ℤ) := by
    have := abs_sub (a : ℚ) b
    push_cast
    rw [abs_div, abs_of_pos (show (0 : ℚ) < 1000000 by norm_num), div_lt_iff₀ (by norm_num)]
    norm_num at ha hb ⊢
    linarith
  rw [trueDiv, double_of_lt apart]
  exact ⟨_, rfl⟩

end Doubles
