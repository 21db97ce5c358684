import Mathlib.Algebra.Group.Int.Defs
import Mathlib.Algebra.Group.Nat.Defs
import Mathlib.Data.List.Basic
import Mathlib.Data.Int.Order.Basic
import Mathlib.Logic.Function.Basic

/-!
# Python values

The values that reach a Python program as decoded JSON or as an AMQP header table, with the
built-in conversions that depend on their type: `int(value)`, `bool(value)`, `str.strip()`
and `float(int)`. `int` fails with one of three exceptions and callers rarely catch all of
them, so the failure is part of the result.
-/
namespace Python

abbrev Bytes := List UInt8

/-- A finite double: `mantissa · 2 ^ exponent`, within the binary64 range. There is one zero; the
negative one, which is equal to it and has a text of its own, is left out. -/
structure FiniteFloat where
  mantissa : Int
  exponent : Int
  mantissa_lt : mantissa.natAbs < 2 ^ 53
  exponent_ge : -1074 ≤ exponent
  exponent_le : exponent ≤ 971
  deriving DecidableEq, Repr

inductive Float where
  | nan
  | inf (negative : Bool)
  | finite (f : FiniteFloat)
  deriving DecidableEq, Repr

inductive Value where
  | none
  | bool (b : Bool)
  | int (i : Int)
  | float (f : Float)
  | decimal (unscaled : Int) (scale : Nat)
  | str (s : String)
  | bytes (b : Bytes)
  | datetime (microseconds : Int)
  | list (xs : List Value)
  | dict (fields : List (String × Value))
  deriving Repr

/-- The exceptions `int(value)` raises. `OverflowError` is not a `ValueError`. -/
inductive ConversionError where
  | typeError
  | valueError
  | overflowError
  deriving DecidableEq, Repr

/-- Truncation towards zero, as `int(float)` does. -/
def FiniteFloat.trunc (f : FiniteFloat) : Int :=
  if 0 ≤ f.exponent then f.mantissa * 2 ^ f.exponent.toNat
  else f.mantissa.tdiv (2 ^ (-f.exponent).toNat)

/-- `float(n)` raises `OverflowError` unless `n` rounds to a finite double. -/
def fitsFloat (n : Int) : Prop := n.natAbs < 2 ^ 1024 - 2 ^ 970

instance (n : Int) : Decidable (fitsFloat n) := inferInstanceAs (Decidable (_ < _))

/-- The zeros of the decimal digit blocks of Unicode 15.1; each block has ten digits. -/
def decimalZeros : List Nat :=
  [0x30, 0x660, 0x6f0, 0x7c0, 0x966, 0x9e6, 0xa66, 0xae6, 0xb66, 0xbe6, 0xc66, 0xce6, 0xd66,
   0xde6, 0xe50, 0xed0, 0xf20, 0x1040, 0x1090, 0x17e0, 0x1810, 0x1946, 0x19d0, 0x1a80, 0x1a90,
   0x1b50, 0x1bb0, 0x1c40, 0x1c50, 0xa620, 0xa8d0, 0xa900, 0xa9d0, 0xa9f0, 0xaa50, 0xabf0,
   0xff10, 0x104a0, 0x10d30, 0x11066, 0x110f0, 0x11136, 0x111d0, 0x112f0, 0x11450, 0x114d0,
   0x11650, 0x116c0, 0x11730, 0x118e0, 0x11950, 0x11c50, 0x11d50, 0x11da0, 0x11f50, 0x16a60,
   0x16ac0, 0x16b50, 0x1d7ce, 0x1d7d8, 0x1d7e2, 0x1d7ec, 0x1d7f6, 0x1e140, 0x1e2f0, 0x1e4f0,
   0x1e950, 0x1fbf0]

def decimalDigit (c : Char) : Option Nat :=
  (decimalZeros.find? fun z => z ≤ c.toNat && c.toNat < z + 10).map (c.toNat - ·)

def asciiDigit (c : Char) : Option Nat :=
  if c.isDigit then some (c.toNat - 0x30) else none

def asciiSpace (c : Char) : Bool := (9 ≤ c.toNat && c.toNat ≤ 13) || c.toNat == 32

def unicodeSpace (c : Char) : Bool :=
  c.toNat ∈ [0x85, 0xa0, 0x1680, 0x2028, 0x2029, 0x202f, 0x205f, 0x3000] ||
    (0x2000 ≤ c.toNat && c.toNat ≤ 0x200a)

/-- `str.isspace` of one character. The separators 0x1c to 0x1f are spaces for `strip` but
not for `int`. -/
def isSpace (c : Char) : Bool :=
  asciiSpace c || (0x1c ≤ c.toNat && c.toNat ≤ 0x1f) || unicodeSpace c

def stripChars (space : Char → Bool) (cs : List Char) : List Char :=
  ((cs.dropWhile space).reverse.dropWhile space).reverse

/-- `str.strip()`. -/
def strip (s : String) : String := String.ofList (stripChars isSpace s.toList)

/-- Digits with single underscores between them. -/
def digitRun (digit : Char → Option Nat) : List Char → Option (List Nat)
  | [] => none
  | [c] => (digit c).map ([·])
  | c :: '_' :: cs => (digit c).bind fun d => (digitRun digit cs).map (d :: ·)
  | c :: c' :: cs => (digit c).bind fun d => (digitRun digit (c' :: cs)).map (d :: ·)

/-- Decimal digits beyond `sys.get_int_max_str_digits()` are refused. -/
def natOfChars (digit : Char → Option Nat) (cs : List Char) : Option Nat :=
  (digitRun digit cs).bind fun ds =>
    if ds.length ≤ 4300 then some (ds.foldl (fun n d => 10 * n + d) 0) else none

def intOfChars (digit : Char → Option Nat) : List Char → Option Int
  | '+' :: cs => (natOfChars digit cs).map fun n => (n : Int)
  | '-' :: cs => (natOfChars digit cs).map fun n => -(n : Int)
  | cs => (natOfChars digit cs).map fun n => (n : Int)

def intOfString (s : String) : Option Int :=
  intOfChars decimalDigit (stripChars (fun c => asciiSpace c || unicodeSpace c) s.toList)

def intOfBytes (b : Bytes) : Option Int :=
  intOfChars asciiDigit (stripChars asciiSpace (b.map fun x => Char.ofNat x.toNat))

/-- `int(value)`. -/
def Value.toInt : Value → Except ConversionError Int
  | .bool b => .ok (if b then 1 else 0)
  | .int i => .ok i
  | .float .nan => .error .valueError
  | .float (.inf _) => .error .overflowError
  | .float (.finite f) => .ok f.trunc
  | .decimal unscaled scale => .ok (unscaled.tdiv (10 ^ scale))
  | .str s => ((intOfString s).map Except.ok).getD (.error .valueError)
  | .bytes b => ((intOfBytes b).map Except.ok).getD (.error .valueError)
  | .none | .datetime _ | .list _ | .dict _ => .error .typeError

/-- The only values whose conversion escapes `except (TypeError, ValueError)`. -/
def Value.isInfinite : Value → Bool
  | .float (.inf _) => true
  | _ => false

theorem Value.toInt_eq_overflowError_iff (v : Value) :
    v.toInt = .error .overflowError ↔ v.isInfinite = true := by
  cases v with
  | float f => cases f <;> simp [toInt, isInfinite]
  | str s => cases h : intOfString s <;> simp [toInt, isInfinite, h]
  | bytes b => cases h : intOfBytes b <;> simp [toInt, isInfinite, h]
  | _ => simp [toInt, isInfinite]

/-- `bool(value)`. -/
def Value.truthy : Value → Bool
  | .none => false
  | .bool b => b
  | .int i => i != 0
  | .float (.finite f) => f.mantissa != 0
  | .float _ => true
  | .decimal unscaled _ => unscaled != 0
  | .str s => s != ""
  | .bytes b => !b.isEmpty
  | .datetime _ => true
  | .list xs => !xs.isEmpty
  | .dict fields => !fields.isEmpty

/-- `mapping.get(key)` on a dictionary; every other value has no keys. -/
def Value.get (v : Value) (key : String) : Option Value :=
  match v with
  | .dict fields => fields.lookup key
  | _ => Option.none

/-- A dictionary with text keys. Its order is not observed. -/
abbrev Dict := String → Option Value

namespace Dict

def set (d : Dict) (key : String) (v : Value) : Dict := Function.update d key (some v)

def pop (d : Dict) (key : String) : Dict := Function.update d key Option.none

end Dict

/-- The built-in conversions to text. The program compares and hashes their results and
never looks inside them. -/
structure Text where
  str : Value → String
  dumps : Value → String
  sha256 : String → String
  str_str : ∀ s, str (.str s) = s

/-- Texts by their own name and everything else by the empty one. -/
def plainText : Text where
  str
    | .str s => s
    | _ => ""
  dumps _ := ""
  sha256 := id
  str_str _ := rfl

/-- `str(value or "").strip()`. -/
def Text.stripped (x : Text) (v : Option Value) : String :=
  match v with
  | some v => if v.truthy then strip (x.str v) else strip ""
  | Option.none => strip ""

end Python
