import Relayna.Foundation.Python
import Mathlib.Data.List.DropRight
import Mathlib.Data.String.Basic

/-!
# Names with a family and a number

Names such as `family:field:number`. The family ends at the first colon and the number begins after
the last one, so these two can be read back from the text. Fields between them cannot: a field may
hold a colon itself. `int` reads the number.
-/
namespace Names

theorem takeWhile_colon {l : List Char} (plain : ':' ∉ l) (rest : List Char) :
    (l ++ ':' :: rest).takeWhile (· ≠ ':') = l := by
  have stops : ∀ x ∈ l, decide (x ≠ ':') = true := by
    intro x hx
    simp only [ne_eq, decide_eq_true_eq]
    rintro rfl
    exact plain hx
  rw [List.takeWhile_append_of_pos stops]
  simp

/-- What comes before the first colon. -/
def family (name : String) : List Char := name.toList.takeWhile (· ≠ ':')

theorem family_append (head : String) {l : List Char} (h : head.toList = l ++ [':'])
    (plain : ':' ∉ l) (tail : String) : family (head ++ tail) = l := by
  rw [family, String.toList_append, h, List.append_assoc]
  exact takeWhile_colon plain tail.toList

theorem family_numbered (head : String) {l : List Char} (h : head.toList = l ++ [':'])
    (plain : ':' ∉ l) (field : String) (n : Nat) :
    family (head ++ field ++ ":" ++ toString n) = l := by
  rw [String.append_assoc, String.append_assoc]
  exact family_append head h plain _

theorem isDigit_of_mem_toString {n : Nat} {c : Char} (hc : c ∈ (toString n).toList) :
    c.isDigit = true := by
  rw [Nat.toString_eq_repr, Nat.toList_repr] at hc
  exact Nat.isDigit_of_mem_toDigits (by decide) (by decide) hc

theorem colon_notMem_toString (n : Nat) : ':' ∉ (toString n).toList := by
  intro mem
  simpa using isDigit_of_mem_toString mem

theorem toString_inj {n m : Nat} (h : toString n = toString m) : n = m := by
  have digits := congrArg String.toList h
  rw [Nat.toString_eq_repr, Nat.toString_eq_repr, Nat.toList_repr, Nat.toList_repr] at digits
  have back (k : Nat) : Nat.ofDigitChars 10 (Nat.toDigits 10 k) 0 = k :=
    Nat.ofDigitChars_toDigits (by decide) (by decide)
  rw [← back n, digits, back]

theorem append_left_inj {head a b : String} (h : head ++ a = head ++ b) : a = b := by
  have texts := congrArg String.toList h
  rw [String.toList_append, String.toList_append] at texts
  exact String.toList_inj.mp (List.append_cancel_left texts)

/-- What is behind the last colon and what is before it. -/
theorem last_inj {a b s t : String} (hs : ':' ∉ s.toList) (ht : ':' ∉ t.toList)
    (h : a ++ ":" ++ s = b ++ ":" ++ t) : a = b ∧ s = t := by
  -- Read from its end, the text begins with the last part, up to the first colon.
  have backwards (u v : String) :
      (u ++ ":" ++ v).toList.reverse = v.toList.reverse ++ ':' :: u.toList.reverse := by
    simp
  have texts := congrArg (fun s => s.toList.reverse) h
  simp only [backwards] at texts
  have last := congrArg (List.takeWhile (· ≠ ':')) texts
  rw [takeWhile_colon (mt List.mem_reverse.mp hs),
    takeWhile_colon (mt List.mem_reverse.mp ht)] at last
  have same := String.toList_inj.mp (List.reverse_injective last)
  subst same
  have rest := (List.cons.inj (List.append_cancel_left texts)).2
  exact ⟨String.toList_inj.mp (List.reverse_injective rest), rfl⟩

/-- The number of a name and what is before it. -/
theorem numbered_inj {a b : String} {n m : Nat}
    (h : a ++ ":" ++ toString n = b ++ ":" ++ toString m) : a = b ∧ n = m := by
  obtain ⟨same, numbers⟩ := last_inj (colon_notMem_toString n) (colon_notMem_toString m) h
  exact ⟨same, toString_inj numbers⟩

/-- A stripped text has nothing left to strip. -/
theorem strip_strip (s : String) : Python.strip (Python.strip s) = Python.strip s := by
  have again (p : Char → Bool) (cs : List Char) :
      Python.stripChars p (Python.stripChars p cs) = Python.stripChars p cs := by
    have front : (cs.dropWhile p |>.rdropWhile p).dropWhile p = (cs.dropWhile p).rdropWhile p := by
      obtain empty | ⟨c, rest, kept⟩ : (cs.dropWhile p).rdropWhile p = [] ∨
          ∃ c rest, (cs.dropWhile p).rdropWhile p = c :: rest := by
        cases (cs.dropWhile p).rdropWhile p <;> simp
      · rw [empty]
        rfl
      · have first : (cs.dropWhile p).head? = some c := by
          obtain ⟨tail, whole⟩ := List.rdropWhile_prefix p (l := cs.dropWhile p)
          rw [← whole, kept]
          rfl
        have stops : p c = false := by
          have := List.head?_dropWhile_not p cs
          rwa [first] at this
        rw [kept, List.dropWhile_cons_of_neg (by simp [stops])]
    calc Python.stripChars p (Python.stripChars p cs)
        = ((cs.dropWhile p |>.rdropWhile p).dropWhile p).rdropWhile p := rfl
      _ = ((cs.dropWhile p).rdropWhile p).rdropWhile p := by rw [front]
      _ = Python.stripChars p cs := List.rdropWhile_idempotent p _
  rw [Python.strip, Python.strip, String.toList_ofList, again]

/-! ## Numbers read back -/

open Python

theorem decimalDigit_of_isDigit {c : Char} (h : c.isDigit = true) :
    decimalDigit c = some (c.toNat - 48) := by
  have range : 48 ≤ c.toNat ∧ c.toNat ≤ 57 := by
    simpa [Char.isDigit, UInt32.le_iff_toNat_le] using h
  have first : (decide (48 ≤ c.toNat) && decide (c.toNat < 48 + 10)) = true := by
    simp only [Bool.and_eq_true, decide_eq_true_eq]
    omega
  have found : decimalZeros.find? (fun z => z ≤ c.toNat && c.toNat < z + 10) = some 48 :=
    List.find?_cons_of_pos first
  rw [decimalDigit, found, Option.map_some]

theorem digitRun_digits {cs : List Char} (nonempty : cs ≠ [])
    (digits : ∀ c ∈ cs, c.isDigit = true) :
    digitRun decimalDigit cs = some (cs.map fun c => c.toNat - 48) := by
  induction cs with
  | nil => exact absurd rfl nonempty
  | cons c cs ih =>
    have first := decimalDigit_of_isDigit (digits c List.mem_cons_self)
    cases cs with
    | nil => rw [digitRun, first]; rfl
    | cons c' cs =>
      have rest := ih (List.cons_ne_nil _ _) fun d hd => digits d (List.mem_cons_of_mem _ hd)
      have other : c' ≠ '_' := by
        rintro rfl
        exact absurd (digits '_' (by simp)) (by decide)
      rw [digitRun, first, rest]
      · rfl
      · exact other

theorem stripChars_of_forall {p : Char → Bool} {cs : List Char} (kept : ∀ c ∈ cs, p c = false) :
    stripChars p cs = cs := by
  have same {l : List Char} (h : ∀ c ∈ l, p c = false) : l.dropWhile p = l := by
    cases l with
    | nil => rfl
    | cons c l => rw [List.dropWhile_cons_of_neg (by simp [h c List.mem_cons_self])]
  rw [stripChars, same kept, same (by simpa using kept), List.reverse_reverse]

theorem length_toDigits_le {n k : Nat} (pos : 0 < k) (h : n < 10 ^ k) :
    (Nat.toDigits 10 n).length ≤ k := (Nat.length_toDigits_le_iff (by decide) pos).mpr h

/-- `int(text)` reads a number back. -/
theorem intOfString_toString {n : Nat} (small : n < 10 ^ 4300) :
    intOfString (toString n) = some (n : Int) := by
  have digits {c : Char} (hc : c ∈ (toString n).toList) := isDigit_of_mem_toString hc
  have plain : stripChars (fun c => asciiSpace c || unicodeSpace c) (toString n).toList =
      (toString n).toList := by
    refine stripChars_of_forall fun c hc => ?_
    have range : 48 ≤ c.toNat ∧ c.toNat ≤ 57 := by
      simpa [Char.isDigit, UInt32.le_iff_toNat_le] using digits hc
    simp [asciiSpace, unicodeSpace]
    omega
  have number : natOfChars decimalDigit (toString n).toList = some n := by
    have toDigits : (toString n).toList = Nat.toDigits 10 n := by
      rw [Nat.toString_eq_repr, Nat.toList_repr]
    rw [natOfChars, digitRun_digits, Option.bind_some, if_pos]
    · rw [List.foldl_map, toDigits]
      exact congrArg some (Nat.ofDigitChars_eq_foldl.symm.trans Nat.ofDigitChars_ten_toDigits)
    · rw [List.length_map, toDigits]
      exact length_toDigits_le (by decide) small
    · rw [toDigits]
      exact Nat.toDigits_ne_nil
    · exact fun c hc => digits hc
  rw [intOfString, plain, intOfChars.eq_def]
  split
  · next text =>
    exact absurd (digits (text ▸ List.mem_cons_self)) (by decide)
  · next text =>
    exact absurd (digits (text ▸ List.mem_cons_self)) (by decide)
  · rw [number]
    rfl

theorem decimalDigit_lt {c : Char} {d : Nat} (h : decimalDigit c = some d) : d < 10 := by
  obtain ⟨first, found, rfl⟩ := Option.map_eq_some_iff.mp h
  have block := List.find?_some found
  simp only [Bool.and_eq_true, decide_eq_true_eq] at block
  omega

theorem digitRun_lt {digit : Char → Option Nat} (small : ∀ {c d}, digit c = some d → d < 10)
    {cs : List Char} {ds : List Nat} (h : digitRun digit cs = some ds) : ∀ d ∈ ds, d < 10 := by
  fun_induction digitRun digit cs generalizing ds with
  | case1 => cases h
  | case2 c =>
    obtain ⟨d, hd, rfl⟩ := Option.map_eq_some_iff.mp h
    simpa using small hd
  | case3 c cs ih | case4 c c' cs other ih =>
    obtain ⟨d, hd, h⟩ := Option.bind_eq_some_iff.mp h
    obtain ⟨rest, hrest, rfl⟩ := Option.map_eq_some_iff.mp h
    exact List.forall_mem_cons.mpr ⟨small hd, ih hrest⟩

theorem foldl_digits_lt {ds : List Nat} (small : ∀ d ∈ ds, d < 10) (n : Nat) :
    ds.foldl (fun n d => 10 * n + d) n < (n + 1) * 10 ^ ds.length := by
  induction ds generalizing n with
  | nil => simp
  | cons d ds ih =>
    obtain ⟨first, rest⟩ := List.forall_mem_cons.mp small
    calc ds.foldl (fun n d => 10 * n + d) (10 * n + d)
        < (10 * n + d + 1) * 10 ^ ds.length := ih rest _
      _ ≤ ((n + 1) * 10) * 10 ^ ds.length := Nat.mul_le_mul_right _ (by omega)
      _ = (n + 1) * 10 ^ (ds.length + 1) := by rw [Nat.pow_succ', Nat.mul_assoc]

theorem natOfChars_lt {cs : List Char} {n : Nat} (h : natOfChars decimalDigit cs = some n) :
    n < 10 ^ 4300 := by
  obtain ⟨ds, run, h⟩ := Option.bind_eq_some_iff.mp h
  split_ifs at h with short
  obtain rfl := Option.some.inj h
  have few := foldl_digits_lt (digitRun_lt decimalDigit_lt run) 0
  rw [Nat.zero_add, Nat.one_mul] at few
  exact few.trans_le (Nat.pow_le_pow_right (by decide) short)

theorem exists_natOfChars {digit : Char → Option Nat} {cs : List Char} {i : Int}
    (h : intOfChars digit cs = some i) :
    ∃ cs' n, natOfChars digit cs' = some n ∧ (i = n ∨ i = -(n : Int)) := by
  rw [intOfChars.eq_def] at h
  split at h <;> obtain ⟨_, made, rfl⟩ := Option.map_eq_some_iff.mp h <;>
    obtain ⟨n, read, cast⟩ := Option.bind_eq_some_iff.mp made <;>
    obtain rfl := Option.some.inj cast
  · exact ⟨_, n, read, .inl rfl⟩
  · exact ⟨_, n, read, .inr rfl⟩
  · exact ⟨_, n, read, .inl rfl⟩

/-- `int` reads no number of more digits than it writes. -/
theorem toNat_lt_of_intOfString {s : String} {i : Int} (h : intOfString s = some i) :
    i.toNat < 10 ^ 4300 := by
  obtain ⟨cs, n, read, same⟩ := exists_natOfChars h
  have small := natOfChars_lt read
  have bound : i.toNat ≤ n := by omega
  exact bound.trans_lt small
end Names
