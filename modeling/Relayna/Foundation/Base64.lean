import Relayna.Foundation.Python

/-!
# Base64

`base64.b64encode` and the lenient `base64.b64decode`: characters outside the alphabet are
skipped, a complete padding ends the input, and a group left open at the end is an error.
-/
namespace Python

def b64Char (n : Nat) : Char :=
  if n < 26 then Char.ofNat (65 + n)
  else if n < 52 then Char.ofNat (71 + n)
  else if n < 62 then Char.ofNat (n - 4)
  else if n = 62 then '+' else '/'

def b64Index (c : Char) : Option Nat :=
  if 'A' ≤ c ∧ c ≤ 'Z' then some (c.toNat - 65)
  else if 'a' ≤ c ∧ c ≤ 'z' then some (c.toNat - 71)
  else if '0' ≤ c ∧ c ≤ '9' then some (c.toNat + 4)
  else if c = '+' then some 62
  else if c = '/' then some 63
  else none

def b64Chars : Bytes → List Char
  | [] => []
  | [a] => [b64Char (a.toNat / 4), b64Char (a.toNat % 4 * 16), '=', '=']
  | [a, b] =>
    [b64Char (a.toNat / 4), b64Char (a.toNat % 4 * 16 + b.toNat / 16),
      b64Char (b.toNat % 16 * 4), '=']
  | a :: b :: c :: rest =>
    b64Char (a.toNat / 4) :: b64Char (a.toNat % 4 * 16 + b.toNat / 16) ::
      b64Char (b.toNat % 16 * 4 + c.toNat / 64) :: b64Char (c.toNat % 64) :: b64Chars rest

/-- The scanner of `binascii.a2b_base64`. `quad` characters of the current group have been read,
`left` holds their bits that are not out yet, and `pads` padding characters came last. -/
def b64Scan (quad left pads : Nat) : List Char → Option Bytes
  | [] => if quad = 0 then some [] else none
  | ch :: rest =>
    if ch = '=' then
      if 2 ≤ quad ∧ 4 ≤ quad + (pads + 1) then some []
      else b64Scan quad left (if 2 ≤ quad then pads + 1 else pads) rest
    else match b64Index ch with
      | none => b64Scan quad left pads rest
      | some x =>
        if quad = 0 then b64Scan 1 x 0 rest
        else if quad = 1 then
          (b64Scan 2 (x % 16) 0 rest).map (UInt8.ofNat (left * 4 + x / 16) :: ·)
        else if quad = 2 then
          (b64Scan 3 (x % 4) 0 rest).map (UInt8.ofNat (left * 16 + x / 4) :: ·)
        else (b64Scan 0 0 0 rest).map (UInt8.ofNat (left * 64 + x) :: ·)

/-- `base64.b64encode(body).decode("ascii")`. -/
def b64encode (body : Bytes) : String := String.ofList (b64Chars body)

/-- `base64.b64decode(text.encode("ascii"))`. -/
def b64decode (text : String) : Option Bytes :=
  if text.toList.all (·.toNat < 128) then b64Scan 0 0 0 text.toList else none

theorem b64Index_b64Char {n : Nat} (h : n < 64) : b64Index (b64Char n) = some n := by
  have all : ∀ n : Fin 64, b64Index (b64Char n) = some n.val := by decide
  exact all ⟨n, h⟩

theorem b64Char_ascii {n : Nat} (h : n < 64) : b64Char n ≠ '=' ∧ (b64Char n).toNat < 128 := by
  have all : ∀ n : Fin 64, b64Char n ≠ '=' ∧ (b64Char n).toNat < 128 := by decide
  exact all ⟨n, h⟩

theorem b64Scan_b64Char {n : Nat} (h : n < 64) (quad left pads : Nat) (rest : List Char) :
    b64Scan quad left pads (b64Char n :: rest) =
      if quad = 0 then b64Scan 1 n 0 rest
      else if quad = 1 then
        (b64Scan 2 (n % 16) 0 rest).map (UInt8.ofNat (left * 4 + n / 16) :: ·)
      else if quad = 2 then
        (b64Scan 3 (n % 4) 0 rest).map (UInt8.ofNat (left * 16 + n / 4) :: ·)
      else (b64Scan 0 0 0 rest).map (UInt8.ofNat (left * 64 + n) :: ·) := by
  rw [b64Scan, if_neg (b64Char_ascii h).1, b64Index_b64Char h]

theorem b64Scan_b64Chars (body : Bytes) : b64Scan 0 0 0 (b64Chars body) = some body := by
  induction body using b64Chars.induct with
  | case1 => rfl
  | case2 a =>
    have ha := a.toNat_lt
    have h1 : a.toNat / 4 * 4 + a.toNat % 4 * 16 / 16 = a.toNat := by omega
    simp only [b64Chars]
    rw [b64Scan_b64Char (by omega), if_pos rfl, b64Scan_b64Char (by omega)]
    rw [if_neg (by decide), if_pos rfl, h1, UInt8.ofNat_toNat]
    simp [b64Scan]
  | case3 a b =>
    have ha := a.toNat_lt
    have hb := b.toNat_lt
    have h1 : a.toNat / 4 * 4 + (a.toNat % 4 * 16 + b.toNat / 16) / 16 = a.toNat := by omega
    have h2 : (a.toNat % 4 * 16 + b.toNat / 16) % 16 * 16 + b.toNat % 16 * 4 / 4 = b.toNat := by
      omega
    simp only [b64Chars]
    rw [b64Scan_b64Char (by omega), if_pos rfl, b64Scan_b64Char (by omega)]
    rw [if_neg (by decide), if_pos rfl, h1, UInt8.ofNat_toNat, b64Scan_b64Char (by omega)]
    rw [if_neg (by decide), if_neg (by decide), if_pos rfl, h2, UInt8.ofNat_toNat]
    simp [b64Scan]
  | case4 a b c rest ih =>
    have ha := a.toNat_lt
    have hb := b.toNat_lt
    have hc := c.toNat_lt
    have h1 : a.toNat / 4 * 4 + (a.toNat % 4 * 16 + b.toNat / 16) / 16 = a.toNat := by omega
    have h2 : (a.toNat % 4 * 16 + b.toNat / 16) % 16 * 16 +
        (b.toNat % 16 * 4 + c.toNat / 64) / 4 = b.toNat := by omega
    have h3 : (b.toNat % 16 * 4 + c.toNat / 64) % 4 * 64 + c.toNat % 64 = c.toNat := by omega
    simp only [b64Chars]
    rw [b64Scan_b64Char (by omega), if_pos rfl, b64Scan_b64Char (by omega)]
    rw [if_neg (by decide), if_pos rfl, h1, UInt8.ofNat_toNat, b64Scan_b64Char (by omega)]
    rw [if_neg (by decide), if_neg (by decide), if_pos rfl, h2, UInt8.ofNat_toNat]
    rw [b64Scan_b64Char (by omega), if_neg (by decide), if_neg (by decide), if_neg (by decide)]
    rw [h3, UInt8.ofNat_toNat, ih]
    rfl

theorem b64Chars_ascii (body : Bytes) : ∀ ch ∈ b64Chars body, ch.toNat < 128 := by
  have ascii : ∀ {n : Nat}, n < 64 → (b64Char n).toNat < 128 := fun h => (b64Char_ascii h).2
  induction body using b64Chars.induct with
  | case1 => simp [b64Chars]
  | case2 a =>
    have ha := a.toNat_lt
    simp only [b64Chars, List.forall_mem_cons]
    exact ⟨ascii (by omega), ascii (by omega), by decide, by decide, by simp⟩
  | case3 a b =>
    have ha := a.toNat_lt
    have hb := b.toNat_lt
    simp only [b64Chars, List.forall_mem_cons]
    exact ⟨ascii (by omega), ascii (by omega), ascii (by omega), by decide, by simp⟩
  | case4 a b c rest ih =>
    have ha := a.toNat_lt
    have hb := b.toNat_lt
    have hc := c.toNat_lt
    simp only [b64Chars, List.forall_mem_cons]
    exact ⟨ascii (by omega), ascii (by omega), ascii (by omega), ascii (by omega), ih⟩

theorem b64decode_b64encode (body : Bytes) : b64decode (b64encode body) = some body := by
  have ascii : (b64Chars body).all (·.toNat < 128) = true := by
    simpa using b64Chars_ascii body
  simp [b64decode, b64encode, ascii, b64Scan_b64Chars]

example : b64encode [77, 97] = "TWE=" := by decide

end Python
