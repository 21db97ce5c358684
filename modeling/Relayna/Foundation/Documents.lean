import Relayna.Foundation.Python

/-!
# Documents inside texts

What `json` and `urllib.parse` make of a text. A text may hold a JSON document, a URL or a form;
`DocumentCodec` has the functions whose results are never looked into as fields, and the others
are built from them.
-/
namespace Python

mutual

def Value.decEq (a b : Value) : Decidable (a = b) := by
  cases a <;> cases b
  case list.list xs ys =>
    exact match decEqList xs ys with
    | isTrue same => isTrue (congrArg Value.list same)
    | isFalse ne => isFalse fun same => ne (Value.list.inj same)
  case dict.dict xs ys =>
    exact match decEqFields xs ys with
    | isTrue same => isTrue (congrArg Value.dict same)
    | isFalse ne => isFalse fun same => ne (Value.dict.inj same)
  case decimal.decimal m s n t => exact decidable_of_iff (m = n ∧ s = t) (by simp)
  case none.none => exact isTrue rfl
  case bool.bool a b => exact decidable_of_iff (a = b) (by simp)
  case int.int a b => exact decidable_of_iff (a = b) (by simp)
  case float.float a b => exact decidable_of_iff (a = b) (by simp)
  case str.str a b => exact decidable_of_iff (a = b) (by simp)
  case bytes.bytes a b => exact decidable_of_iff (a = b) (by simp)
  case datetime.datetime a b => exact decidable_of_iff (a = b) (by simp)
  all_goals exact isFalse (by simp)

def decEqList : (xs ys : List Value) → Decidable (xs = ys)
  | [], [] => isTrue rfl
  | [], _ :: _ => isFalse (by simp)
  | _ :: _, [] => isFalse (by simp)
  | x :: xs, y :: ys =>
    match Value.decEq x y, decEqList xs ys with
    | isTrue first, isTrue rest => isTrue (first ▸ rest ▸ rfl)
    | isFalse ne, _ => isFalse fun same => ne (List.cons.inj same).1
    | _, isFalse ne => isFalse fun same => ne (List.cons.inj same).2

def decEqFields : (xs ys : List (String × Value)) → Decidable (xs = ys)
  | [], [] => isTrue rfl
  | [], _ :: _ => isFalse (by simp)
  | _ :: _, [] => isFalse (by simp)
  | (k, x) :: xs, (l, y) :: ys =>
    match decEq k l, Value.decEq x y, decEqFields xs ys with
    | isTrue key, isTrue first, isTrue rest => isTrue (key ▸ first ▸ rest ▸ rfl)
    | isFalse ne, _, _ => isFalse fun same => ne (Prod.mk.inj (List.cons.inj same).1).1
    | _, isFalse ne, _ => isFalse fun same => ne (Prod.mk.inj (List.cons.inj same).1).2
    | _, _, isFalse ne => isFalse fun same => ne (List.cons.inj same).2

end

instance : DecidableEq Value := Value.decEq

/-- What comes of `json.loads`. -/
inductive Loads
  | value (v : Value)
  | valueError
  | recursionError
  deriving DecidableEq, Repr

structure SplitResult where
  scheme : String
  netloc : String
  path : String
  query : String
  fragment : String
  deriving DecidableEq, Repr

/-- `netloc.rsplit("@", 1)[-1]`. -/
def hostOf (netloc : String) : String :=
  String.ofList (netloc.toList.reverse.takeWhile (· ≠ '@')).reverse

/-- `text.lstrip().startswith(("{", "["))`. -/
def looksLikeJson (text : String) : Bool :=
  (text.toList.dropWhile isSpace).head?.any fun c => c = '\x7b' ∨ c = '['

/-- The functions of `json` and `urllib.parse`, and `str.lower`. `urlsplit` fails for a text that
is no URL. -/
structure DocumentCodec where
  loads : String → Loads
  dumps : Value → String
  urlsplit : String → Option SplitResult
  urlunsplit : SplitResult → String
  unquote : String → String
  quotePlus : String → String
  lower : String → String

namespace DocumentCodec

variable (x : DocumentCodec)

/-- `text.strip().lower().startswith(("http://", "https://"))`. -/
def looksLikeHttp (text : String) : Bool :=
  "http://".toList.isPrefixOf (x.lower (strip text)).toList ||
    "https://".toList.isPrefixOf (x.lower (strip text)).toList

/-- A name or a value of a form. -/
def unquotePlus (part : List Char) : String :=
  x.unquote (String.ofList (part.map fun c => if c = '+' then ' ' else c))

/-- The name and the value of one part of a form. -/
def parsePart (part : List Char) : String × String :=
  (x.unquotePlus (part.takeWhile (· ≠ '=')), x.unquotePlus (part.dropWhile (· ≠ '=')).tail)

/-- `parse_qsl(text, keep_blank_values=True)`. -/
def parseQsl (text : String) : List (String × String) :=
  ((text.toList.splitOn '&').filter (· ≠ [])).map x.parsePart

def urlencode (pairs : List (String × String)) : String :=
  "&".intercalate (pairs.map fun p => x.quotePlus p.1 ++ "=" ++ x.quotePlus p.2)

theorem mem_urlencode {pairs : List (String × String)} (h : pairs ≠ []) :
    '=' ∈ (x.urlencode pairs).toList := by
  match pairs with
  | [p] => simp [urlencode]
  | p :: q :: pairs => simp [urlencode, String.intercalate_cons_cons]

end DocumentCodec

end Python
