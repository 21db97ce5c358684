import Mathlib.Data.List.Sort
import Mathlib.Data.String.Basic
import Relayna.Foundation.Names
import Relayna.Foundation.Python

/-!
# JSON texts with sorted keys

`json.dumps` with `sort_keys=True` and the separators `,` and `:`. A value is first made a document
whose keys are sorted, and the document is then written. What is written can be read in one way
only: a document is followed by the end, a comma or a closing bracket, and where it ends is seen
from its first characters on.
-/
namespace Json

open Python

/-- A document. A finite float is a multiple of the smallest one. -/
inductive Document where
  | null
  | bool (b : Bool)
  | int (i : Int)
  | float (multiple : Int)
  | nan
  | inf (negative : Bool)
  | str (s : String)
  | list (xs : List Document)
  | dict (fields : List (String × Document))

/-- `repr` of finite floats but negative zero, with a point or an exponent. -/
structure FloatRepr where
  text : Int → List Char
  injective : Function.Injective text
  chars : ∀ x, ∀ c ∈ text x, c.isDigit = true ∨ c ∈ ['.', 'e', '+', '-']
  marked : ∀ x, ∃ c ∈ text x, c = '.' ∨ c = 'e'

/-! ## Strings -/

def hexDigit (n : Nat) : Char := "0123456789abcdef".toList.getD n '0'

/-- `\uXXXX`, the numbers being below `0x10000`. -/
def unicode (n : Nat) : List Char :=
  ['\\', 'u', hexDigit (n / 4096), hexDigit (n / 256 % 16), hexDigit (n / 16 % 16),
    hexDigit (n % 16)]

/-- The characters with an escape of their own. -/
def short : List (Char × Char) :=
  [('\\', '\\'), ('"', '"'), ('\x08', 'b'), ('\x0c', 'f'), ('\n', 'n'), ('\r', 'r'), ('\t', 't')]

def escape (c : Char) : List Char :=
  match short.lookup c with
  | some e => ['\\', e]
  | none =>
    if ' ' ≤ c ∧ c ≤ '~' then [c]
    else if c.toNat < 0x10000 then unicode c.toNat
    else unicode (0xd800 + (c.toNat - 0x10000) / 0x400) ++
      unicode (0xdc00 + (c.toNat - 0x10000) % 0x400)

def quoted (s : String) : List Char := '"' :: s.toList.flatMap escape ++ ['"']

/-! ## Documents -/

section Render

variable (x : FloatRepr)

mutual

def render : Document → List Char
  | .null => "null".toList
  | .bool b => (if b then "true" else "false").toList
  | .int i => (toString i).toList
  | .float multiple => x.text multiple
  | .nan => "NaN".toList
  | .inf negative => (if negative then "-Infinity" else "Infinity").toList
  | .str s => quoted s
  | .list xs => '[' :: renderItems xs
  | .dict fields => '\x7b' :: renderFields fields

def renderItems : List Document → List Char
  | [] => [']']
  | [v] => render v ++ [']']
  | v :: xs => render v ++ ',' :: renderItems xs

def renderFields : List (String × Document) → List Char
  | [] => ['\x7d']
  | [(key, v)] => quoted key ++ ':' :: render v ++ ['\x7d']
  | (key, v) :: fields => quoted key ++ ':' :: render v ++ ',' :: renderFields fields

end

end Render

/-! ## Strings are read in one way -/

def hexValue (c : Char) : Nat := "0123456789abcdef".toList.idxOf c

theorem hexValue_hexDigit : ∀ n < 16, hexValue (hexDigit n) = n := by decide

def readUnicode : List Char → Option (Nat × List Char)
  | '\\' :: 'u' :: a :: b :: c :: d :: rest =>
    some (((hexValue a * 16 + hexValue b) * 16 + hexValue c) * 16 + hexValue d, rest)
  | _ => none

theorem readUnicode_unicode {n : Nat} (h : n < 0x10000) (rest : List Char) :
    readUnicode (unicode n ++ rest) = some (n, rest) := by
  simp only [unicode, List.cons_append, List.nil_append, readUnicode,
    hexValue_hexDigit _ (by omega : n / 4096 < 16),
    hexValue_hexDigit _ (by omega : n / 256 % 16 < 16),
    hexValue_hexDigit _ (by omega : n / 16 % 16 < 16),
    hexValue_hexDigit _ (by omega : n % 16 < 16)]
  refine congrArg (fun k => some (k, rest)) ?_
  omega

/-- The first character of what was escaped. -/
def readChar (text : List Char) : Option (Char × List Char) :=
  match text with
  | '\\' :: 'u' :: _ => (readUnicode text).bind fun first =>
      if 0xd800 ≤ first.1 ∧ first.1 < 0xdc00 then
        (readUnicode first.2).map fun second =>
          (Char.ofNat (0x10000 + (first.1 - 0xd800) * 0x400 + (second.1 - 0xdc00)), second.2)
      else some (Char.ofNat first.1, first.2)
  | '\\' :: e :: rest => (short.find? (·.2 = e)).map fun entry => (entry.1, rest)
  | c :: rest => some (c, rest)
  | [] => none

theorem readChar_short {c e : Char} (h : short.lookup c = some e) (rest : List Char) :
    readChar ('\\' :: e :: rest) = some (c, rest) := by
  obtain ⟨before, after, split, -⟩ := List.lookup_eq_some_iff.mp h
  have mem : (c, e) ∈ short := by
    rw [split]
    simp
  simp only [short, List.mem_cons, Prod.mk.injEq, List.not_mem_nil, or_false] at mem
  rcases mem with ⟨rfl, rfl⟩ | ⟨rfl, rfl⟩ | ⟨rfl, rfl⟩ | ⟨rfl, rfl⟩ | ⟨rfl, rfl⟩ | ⟨rfl, rfl⟩ |
    ⟨rfl, rfl⟩
  all_goals rfl

theorem readChar_plain {c : Char} (h : c ≠ '\\') (rest : List Char) :
    readChar (c :: rest) = some (c, rest) := by
  unfold readChar
  split
  · next same => exact absurd (List.cons.inj same).1 h
  · next same => exact absurd (List.cons.inj same).1 h
  · next same =>
    obtain ⟨rfl, rfl⟩ := List.cons.inj same
    rfl
  · next same => cases same

theorem readChar_unicode {n : Nat} (h : n < 0x10000) (rest : List Char) :
    readChar (unicode n ++ rest) =
      if 0xd800 ≤ n ∧ n < 0xdc00 then
        (readUnicode rest).map fun second =>
          (Char.ofNat (0x10000 + (n - 0xd800) * 0x400 + (second.1 - 0xdc00)), second.2)
      else some (Char.ofNat n, rest) := by
  have read := readUnicode_unicode h rest
  simp only [unicode, List.cons_append, List.nil_append] at read ⊢
  rw [readChar, read, Option.bind_some]

theorem readChar_escape (c : Char) (rest : List Char) :
    readChar (escape c ++ rest) = some (c, rest) := by
  unfold escape
  cases found : short.lookup c with
  | some e => exact readChar_short found rest
  | none =>
    have plain : c ≠ '\\' := by
      rintro rfl
      cases found
    have valid : c.toNat < 0xd800 ∨ 0xdfff < c.toNat ∧ c.toNat < 0x110000 := c.valid
    dsimp only
    split_ifs with printable small
    · exact readChar_plain plain rest
    · rw [readChar_unicode small, if_neg (by omega), Char.ofNat_toNat]
    · rw [List.append_assoc, readChar_unicode (by omega), if_pos (by omega),
        readUnicode_unicode (by omega), Option.map_some]
      dsimp only
      have number : 0x10000 + (0xd800 + (c.toNat - 0x10000) / 0x400 - 0xd800) * 0x400 +
          (0xdc00 + (c.toNat - 0x10000) % 0x400 - 0xdc00) = c.toNat := by omega
      rw [number, Char.ofNat_toNat]

theorem escape_inj {c d : Char} {r s : List Char} (h : escape c ++ r = escape d ++ s) :
    c = d ∧ r = s := by
  have read := readChar_escape c r
  rw [h, readChar_escape] at read
  obtain ⟨rfl, rfl⟩ := Prod.mk.inj (Option.some.inj read)
  exact ⟨rfl, rfl⟩

theorem head_escape (c : Char) : ∃ d rest, escape c = d :: rest ∧ d ≠ '"' := by
  unfold escape
  cases found : short.lookup c with
  | some e => exact ⟨_, _, rfl, by decide⟩
  | none =>
    dsimp only
    split_ifs
    · refine ⟨c, [], rfl, ?_⟩
      rintro rfl
      cases found
    · exact ⟨_, _, rfl, by decide⟩
    · exact ⟨_, _, rfl, by decide⟩

theorem escaped_inj {a b r s : List Char}
    (h : a.flatMap escape ++ '"' :: r = b.flatMap escape ++ '"' :: s) : a = b ∧ r = s := by
  induction a generalizing b with
  | nil =>
    cases b with
    | nil => exact ⟨rfl, (List.cons.inj h).2⟩
    | cons d b =>
      obtain ⟨e, rest, head, ne⟩ := head_escape d
      rw [List.flatMap_cons, head] at h
      exact absurd (List.cons.inj h).1.symm ne
  | cons c a ih =>
    cases b with
    | nil =>
      obtain ⟨e, rest, head, ne⟩ := head_escape c
      rw [List.flatMap_cons, head] at h
      exact absurd (List.cons.inj h).1 ne
    | cons d b =>
      rw [List.flatMap_cons, List.flatMap_cons, List.append_assoc, List.append_assoc] at h
      obtain ⟨rfl, rest⟩ := escape_inj h
      obtain ⟨rfl, rfl⟩ := ih rest
      exact ⟨rfl, rfl⟩

theorem quoted_inj {a b : String} {r s : List Char} (h : quoted a ++ r = quoted b ++ s) :
    a = b ∧ r = s := by
  simp only [quoted, List.cons_append, List.append_assoc, List.nil_append, List.cons.injEq,
    true_and] at h
  obtain ⟨texts, rest⟩ := escaped_inj h
  exact ⟨String.toList_inj.mp texts, rest⟩

/-! ## Numbers and words -/

variable {x : FloatRepr}

/-- The characters of numbers and of words such as `null`. -/
def isToken (c : Char) : Bool := c ∉ [',', ']', '\x7d', '"', '[', '\x7b', ':']

def isNumeric (c : Char) : Bool := c.isDigit || c ∈ ['.', 'e', '+', '-']

def isAtom : Document → Bool
  | .str _ | .list _ | .dict _ => false
  | _ => true

def isNumber : Document → Bool
  | .int _ | .float _ => true
  | _ => false

theorem isToken_of_isNumeric {c : Char} (h : isNumeric c = true) : isToken c = true := by
  rw [isToken, decide_eq_true_eq]
  intro mem
  simp only [List.mem_cons, List.not_mem_nil, or_false] at mem
  rcases mem with rfl | rfl | rfl | rfl | rfl | rfl | rfl <;> revert h <;> decide

theorem chars_int {i : Int} {c : Char} (h : c ∈ (toString i).toList) :
    c.isDigit = true ∨ c = '-' := by
  rw [Int.toString_eq_repr, Int.repr_eq_if] at h
  split_ifs at h
  · exact Or.inl (Names.isDigit_of_mem_toString h)
  · rw [String.toList_append, List.mem_append] at h
    rcases h with sign | digit
    · exact Or.inr (List.mem_singleton.mp sign)
    · exact Or.inl (Names.isDigit_of_mem_toString digit)

theorem chars_number {v : Document} (number : isNumber v = true) {c : Char}
    (h : c ∈ render x v) : isNumeric c = true := by
  rw [isNumeric, Bool.or_eq_true, decide_eq_true_eq]
  cases v with
  | int i =>
    refine (chars_int h).imp_right fun sign => ?_
    rw [sign]
    decide
  | float multiple => exact x.chars multiple c h
  | _ => cases number

theorem toString_int_inj {i j : Int} (h : toString i = toString j) : i = j := by
  rw [Int.toString_eq_repr, Int.toString_eq_repr, Int.repr_eq_if, Int.repr_eq_if] at h
  have sign (n m : Nat) : "-" ++ n.repr ≠ m.repr := by
    intro same
    have mem : '-' ∈ (toString m).toList := by
      rw [Nat.toString_eq_repr, ← same, String.toList_append]
      exact List.mem_append_left _ (List.mem_singleton.mpr rfl)
    exact absurd (Names.isDigit_of_mem_toString mem) (by decide)
  have number {n m : Nat} (same : n.repr = m.repr) : n = m := by
    rw [← Nat.toString_eq_repr, ← Nat.toString_eq_repr] at same
    exact Names.toString_inj same
  split_ifs at h with hi hj hj
  · have := number h
    omega
  · exact absurd h.symm (sign _ _)
  · exact absurd h (sign _ _)
  · have := number (Names.append_left_inj h)
    omega

/-- A word has a letter that is in no number. -/
theorem letter_word {v : Document} (atom : isAtom v = true) (word : isNumber v = false) :
    ∃ c ∈ render x v, isNumeric c = false := by
  cases v with
  | bool b =>
    cases b
    · refine ⟨'l', ?_, by decide⟩
      rw [render]
      decide
    · refine ⟨'t', ?_, by decide⟩
      rw [render]
      decide
  | null =>
    refine ⟨'n', ?_, by decide⟩
    rw [render]
    decide
  | nan =>
    refine ⟨'N', ?_, by decide⟩
    rw [render]
    decide
  | inf negative => cases negative <;> refine ⟨'I', ?_, by decide⟩ <;> rw [render] <;> decide
  | int => cases word
  | float => cases word
  | _ => cases atom

/-- The words. -/
inductive Word : Document → List Char → Prop
  | null : Word .null "null".toList
  | bool (b : Bool) : Word (.bool b) (if b then "true" else "false").toList
  | nan : Word .nan "NaN".toList
  | inf (negative : Bool) :
    Word (.inf negative) (if negative then "-Infinity" else "Infinity").toList

theorem word_render {v : Document} (atom : isAtom v = true) (word : isNumber v = false) :
    Word v (render x v) := by
  cases v with
  | null => rw [render]; exact .null
  | bool b => rw [render]; exact .bool b
  | nan => rw [render]; exact .nan
  | inf negative => rw [render]; exact .inf negative
  | int => cases word
  | float => cases word
  | _ => cases atom

theorem Word.inj {v w : Document} {text : List Char} (hv : Word v text) (hw : Word w text) :
    v = w := by
  generalize other : text = text' at hw
  cases hv with
  | null => cases hw with
    | null => rfl
    | bool b => cases b <;> simp at other
    | nan => simp at other
    | inf negative => cases negative <;> simp at other
  | bool b => cases hw with
    | null => cases b <;> simp at other
    | bool b' => cases b <;> cases b' <;> simp at other ⊢
    | nan => cases b <;> simp at other
    | inf negative => cases b <;> cases negative <;> simp at other
  | nan => cases hw with
    | null => simp at other
    | bool b => cases b <;> simp at other
    | nan => rfl
    | inf negative => cases negative <;> simp at other
  | inf negative => cases hw with
    | null => cases negative <;> simp at other
    | bool b => cases negative <;> cases b <;> simp at other
    | nan => cases negative <;> simp at other
    | inf negative' => cases negative <;> cases negative' <;> simp at other ⊢

theorem number_inj {v w : Document} (hv : isNumber v = true) (hw : isNumber w = true)
    (h : render x v = render x w) : v = w := by
  have apart (i : Int) (multiple : Int) : (toString i).toList ≠ x.text multiple := by
    intro same
    obtain ⟨c, mem, mark⟩ := x.marked multiple
    rw [← same] at mem
    rcases mark with rfl | rfl <;> exact absurd (chars_int mem) (by decide)
  cases v with
  | int i =>
    cases w with
    | int j =>
      rw [render, render] at h
      exact congrArg Document.int (toString_int_inj (String.toList_inj.mp h))
    | float multiple =>
      rw [render, render] at h
      exact absurd h (apart i multiple)
    | _ => cases hw
  | float multiple =>
    cases w with
    | int j =>
      rw [render, render] at h
      exact absurd h.symm (apart j multiple)
    | float other =>
      rw [render, render] at h
      exact congrArg Document.float (x.injective h)
    | _ => cases hw
  | _ => cases hv

theorem atom_inj {v w : Document} (hv : isAtom v = true) (hw : isAtom w = true)
    (h : render x v = render x w) : v = w := by
  cases number : isNumber v with
  | true =>
    cases number' : isNumber w with
    | true => exact number_inj number number' h
    | false =>
      obtain ⟨c, mem, letter⟩ := letter_word hw number'
      rw [← h] at mem
      rw [chars_number number mem] at letter
      cases letter
  | false =>
    cases number' : isNumber w with
    | true =>
      obtain ⟨c, mem, letter⟩ := letter_word hv number
      rw [h] at mem
      rw [chars_number number' mem] at letter
      cases letter
    | false =>
      have word := word_render (x := x) hw number'
      rw [← h] at word
      exact (word_render hv number).inj word

theorem isToken_atom {v : Document} (atom : isAtom v = true) {c : Char} (h : c ∈ render x v) :
    isToken c = true := by
  cases number : isNumber v with
  | true => exact isToken_of_isNumeric (chars_number number h)
  | false =>
    have all : ∀ {text}, Word v text → ∀ c ∈ text, isToken c = true := by
      intro text word
      cases word with
      | null => exact List.all_eq_true.mp (by decide)
      | bool b => cases b <;> exact List.all_eq_true.mp (by decide)
      | nan => exact List.all_eq_true.mp (by decide)
      | inf negative => cases negative <;> exact List.all_eq_true.mp (by decide)
    exact all (word_render atom number) c h

theorem toString_ne_nil (n : Nat) : (toString n).toList ≠ [] := by
  rw [Nat.toString_eq_repr, Nat.toList_repr]
  exact Nat.toDigits_ne_nil

theorem render_ne_nil {v : Document} (atom : isAtom v = true) : render x v ≠ [] := by
  cases number : isNumber v with
  | true =>
    cases v with
    | int i =>
      rw [render, Int.toString_eq_repr, Int.repr_eq_if]
      split_ifs
      · exact toString_ne_nil _
      · rw [String.toList_append]
        exact List.append_ne_nil_of_left_ne_nil (by decide) _
    | float multiple =>
      obtain ⟨c, mem, -⟩ := x.marked multiple
      rw [render]
      exact List.ne_nil_of_mem mem
    | _ => cases number
  | false =>
    obtain ⟨c, mem, -⟩ := letter_word (x := x) atom number
    exact List.ne_nil_of_mem mem

/-! ## Documents are read in one way -/

/-- What may follow a document. -/
def Ends (rest : List Char) : Prop := ∀ c ∈ rest.head?, isToken c = false

theorem ends_nil : Ends [] := fun _ h => by cases h

theorem ends_cons {c : Char} (h : isToken c = false) (rest : List Char) : Ends (c :: rest) := by
  rintro _ ⟨⟩
  exact h

theorem takeWhile_token {token rest : List Char} (h : ∀ c ∈ token, isToken c = true)
    (ends : Ends rest) : (token ++ rest).takeWhile isToken = token := by
  rw [List.takeWhile_append_of_pos h]
  cases rest with
  | nil => simp
  | cons c rest => rw [List.takeWhile_cons, ends c rfl, if_neg Bool.false_ne_true, List.append_nil]

theorem token_inj {a b r s : List Char} (ha : ∀ c ∈ a, isToken c = true)
    (hb : ∀ c ∈ b, isToken c = true) (hr : Ends r) (hs : Ends s) (h : a ++ r = b ++ s) :
    a = b ∧ r = s := by
  have same := congrArg (List.takeWhile isToken) h
  rw [takeWhile_token ha hr, takeWhile_token hb hs] at same
  subst same
  exact ⟨rfl, List.append_cancel_left h⟩

/-- An atom begins with a character of its own. -/
theorem head_atom {v : Document} (atom : isAtom v = true) {c : Char} {r s : List Char}
    (h : render x v ++ r = c :: s) : isToken c = true := by
  cases text : render x v with
  | nil => exact absurd text (render_ne_nil atom)
  | cons d rest =>
    rw [text] at h
    obtain ⟨rfl, -⟩ := List.cons.inj h
    exact isToken_atom atom (by rw [text]; exact List.mem_cons_self)

theorem render_str (s : String) : render x (.str s) = quoted s := by rw [render]

theorem render_list (xs : List Document) : render x (.list xs) = '[' :: renderItems x xs := by
  rw [render]

theorem render_dict (fields : List (String × Document)) :
    render x (.dict fields) = '\x7b' :: renderFields x fields := by rw [render]

/-- No document begins with a bracket that closes. -/
theorem head_render (v : Document) {c : Char} {r s : List Char} (h : render x v ++ r = c :: s) :
    c ≠ ']' ∧ c ≠ '\x7d' := by
  cases v with
  | str a =>
    rw [render, quoted] at h
    obtain ⟨rfl, -⟩ := List.cons.inj h
    decide
  | list xs =>
    rw [render] at h
    obtain ⟨rfl, -⟩ := List.cons.inj h
    decide
  | dict fields =>
    rw [render] at h
    obtain ⟨rfl, -⟩ := List.cons.inj h
    decide
  | _ =>
    have token := head_atom rfl h
    constructor <;> rintro rfl <;> exact absurd token (by decide)

theorem atom_render_inj {v w : Document} (atom : isAtom v = true) {r s : List Char} (hr : Ends r)
    (hs : Ends s) (h : render x v ++ r = render x w ++ s) : v = w ∧ r = s := by
  cases other : isAtom w with
  | true =>
    obtain ⟨texts, rest⟩ := token_inj (fun _ => isToken_atom atom) (fun _ => isToken_atom other)
      hr hs h
    exact ⟨atom_inj atom other texts, rest⟩
  | false =>
    cases w with
    | str b =>
      rw [render_str, quoted] at h
      exact absurd (head_atom atom h) (by decide)
    | list xs =>
      rw [render_list] at h
      exact absurd (head_atom atom h) (by decide)
    | dict fields =>
      rw [render_dict] at h
      exact absurd (head_atom atom h) (by decide)
    | _ => cases other

/-- What follows the first of some items. -/
def itemsAfter (x : FloatRepr) : List Document → List Char
  | [] => [']']
  | xs => ',' :: renderItems x xs

def fieldsAfter (x : FloatRepr) : List (String × Document) → List Char
  | [] => ['\x7d']
  | fields => ',' :: renderFields x fields

theorem renderItems_cons (v : Document) (xs : List Document) :
    renderItems x (v :: xs) = render x v ++ itemsAfter x xs := by
  cases xs <;> rw [renderItems, itemsAfter] <;> simp

theorem renderFields_cons (key : String) (v : Document) (fields : List (String × Document)) :
    renderFields x ((key, v) :: fields) =
      quoted key ++ ':' :: (render x v ++ fieldsAfter x fields) := by
  cases fields <;> rw [renderFields, fieldsAfter] <;> simp

theorem ends_itemsAfter (xs : List Document) (r : List Char) : Ends (itemsAfter x xs ++ r) := by
  cases xs <;> exact ends_cons (by decide) _

theorem ends_fieldsAfter (fields : List (String × Document)) (r : List Char) :
    Ends (fieldsAfter x fields ++ r) := by
  cases fields <;> exact ends_cons (by decide) _

theorem itemsAfter_inj {xs ys : List Document} {r s : List Char}
    (inj : renderItems x xs ++ r = renderItems x ys ++ s → xs = ys ∧ r = s)
    (h : itemsAfter x xs ++ r = itemsAfter x ys ++ s) : xs = ys ∧ r = s := by
  match xs, ys with
  | [], [] => exact ⟨rfl, (List.cons.inj h).2⟩
  | [], _ :: _ => cases (List.cons.inj h).1
  | _ :: _, [] => cases (List.cons.inj h).1
  | _ :: _, _ :: _ => exact inj (List.cons.inj h).2

theorem fieldsAfter_inj {d e : List (String × Document)} {r s : List Char}
    (inj : renderFields x d ++ r = renderFields x e ++ s → d = e ∧ r = s)
    (h : fieldsAfter x d ++ r = fieldsAfter x e ++ s) : d = e ∧ r = s := by
  match d, e with
  | [], [] => exact ⟨rfl, (List.cons.inj h).2⟩
  | [], _ :: _ => cases (List.cons.inj h).1
  | _ :: _, [] => cases (List.cons.inj h).1
  | _ :: _, _ :: _ => exact inj (List.cons.inj h).2

mutual

theorem render_inj : ∀ {v w : Document} {r s : List Char}, Ends r → Ends s →
    render x v ++ r = render x w ++ s → v = w ∧ r = s
  | .str a, w, r, s, hr, hs, h => by
    cases other : isAtom w with
    | true =>
      obtain ⟨rfl, rfl⟩ := atom_render_inj other hs hr h.symm
      cases other
    | false =>
      cases w with
      | str b =>
        rw [render_str, render_str] at h
        obtain ⟨rfl, rfl⟩ := quoted_inj h
        exact ⟨rfl, rfl⟩
      | list ys =>
        rw [render_str, render_list] at h
        cases (List.cons.inj h).1
      | dict fields =>
        rw [render_str, render_dict] at h
        cases (List.cons.inj h).1
      | _ => cases other
  | .list xs, w, r, s, hr, hs, h => by
    cases other : isAtom w with
    | true =>
      obtain ⟨rfl, rfl⟩ := atom_render_inj other hs hr h.symm
      cases other
    | false =>
      cases w with
      | str b =>
        rw [render_str, render_list] at h
        cases (List.cons.inj h).1
      | list ys =>
        rw [render_list, render_list] at h
        obtain ⟨rfl, rfl⟩ := renderItems_inj (List.cons.inj h).2
        exact ⟨rfl, rfl⟩
      | dict fields =>
        rw [render_list, render_dict] at h
        cases (List.cons.inj h).1
      | _ => cases other
  | .dict fields, w, r, s, hr, hs, h => by
    cases other : isAtom w with
    | true =>
      obtain ⟨rfl, rfl⟩ := atom_render_inj other hs hr h.symm
      cases other
    | false =>
      cases w with
      | str b =>
        rw [render_str, render_dict] at h
        cases (List.cons.inj h).1
      | list ys =>
        rw [render_list, render_dict] at h
        cases (List.cons.inj h).1
      | dict others =>
        rw [render_dict, render_dict] at h
        obtain ⟨rfl, rfl⟩ := renderFields_inj (List.cons.inj h).2
        exact ⟨rfl, rfl⟩
      | _ => cases other
  | .null, _, _, _, hr, hs, h => atom_render_inj rfl hr hs h
  | .bool _, _, _, _, hr, hs, h => atom_render_inj rfl hr hs h
  | .int _, _, _, _, hr, hs, h => atom_render_inj rfl hr hs h
  | .float _, _, _, _, hr, hs, h => atom_render_inj rfl hr hs h
  | .nan, _, _, _, hr, hs, h => atom_render_inj rfl hr hs h
  | .inf _, _, _, _, hr, hs, h => atom_render_inj rfl hr hs h

theorem renderItems_inj : ∀ {xs ys : List Document} {r s : List Char},
    renderItems x xs ++ r = renderItems x ys ++ s → xs = ys ∧ r = s
  | [], [], _, _, h => by
    rw [renderItems] at h
    exact ⟨rfl, (List.cons.inj h).2⟩
  | [], w :: ys, _, _, h => by
    rw [renderItems_cons, renderItems, List.append_assoc] at h
    exact absurd rfl (head_render w h.symm).1
  | v :: xs, [], _, _, h => by
    rw [renderItems_cons, renderItems, List.append_assoc] at h
    exact absurd rfl (head_render v h).1
  | v :: xs, w :: ys, r, s, h => by
    rw [renderItems_cons, renderItems_cons, List.append_assoc, List.append_assoc] at h
    obtain ⟨rfl, rest⟩ := render_inj (ends_itemsAfter xs r) (ends_itemsAfter ys s) h
    obtain ⟨rfl, rfl⟩ := itemsAfter_inj renderItems_inj rest
    exact ⟨rfl, rfl⟩

theorem renderFields_inj : ∀ {d e : List (String × Document)} {r s : List Char},
    renderFields x d ++ r = renderFields x e ++ s → d = e ∧ r = s
  | [], [], _, _, h => by
    rw [renderFields] at h
    exact ⟨rfl, (List.cons.inj h).2⟩
  | [], (key, w) :: e, _, _, h => by
    rw [renderFields_cons, renderFields, quoted] at h
    cases (List.cons.inj h).1
  | (key, v) :: d, [], _, _, h => by
    rw [renderFields_cons, renderFields, quoted] at h
    cases (List.cons.inj h).1
  | (key, v) :: d, (key', w) :: e, r, s, h => by
    rw [renderFields_cons, renderFields_cons, List.append_assoc, List.append_assoc] at h
    obtain ⟨rfl, rest⟩ := quoted_inj h
    have value : render x v ++ fieldsAfter x d ++ r = render x w ++ fieldsAfter x e ++ s :=
      (List.cons.inj rest).2
    rw [List.append_assoc, List.append_assoc] at value
    obtain ⟨rfl, tail⟩ := render_inj (ends_fieldsAfter d r) (ends_fieldsAfter e s) value
    obtain ⟨rfl, rfl⟩ := fieldsAfter_inj renderFields_inj tail
    exact ⟨rfl, rfl⟩

end

theorem render_injective : Function.Injective (render x) := by
  intro v w h
  have text : render x v ++ [] = render x w ++ [] := by rw [h]
  exact (render_inj ends_nil ends_nil text).1

end Json
