import Mathlib.Data.String.Basic

/-!
# Texts cut at a character

What `String.splitOn` does with a separator of one character, in terms of `List.splitOn`. The words
between the separators determine the text, and words without the separator can be read back from
the text that joins them.
-/
namespace Words

open String

variable {c : Char}

theorem singleton_eq_ofList (c : Char) : singleton c = ofList [c] :=
  String.toList_inj.mp (by rw [toList_singleton, String.toList_ofList])

/-- `l` has been cut off, `m` is the word being read and `r` is what is left. -/
theorem splitOnAux_singleton (c : Char) (l m r : List Char) (done : List String) :
    splitOnAux (ofList (l ++ m ++ r)) (singleton c) ⟨utf8Len l⟩ ⟨utf8Len (l ++ m)⟩ 0 done =
      done.reverse ++ (List.splitOnPPrepend (· == c) r m.reverse).map ofList := by
  induction r generalizing l m done with
  | nil =>
    have word := extract_of_valid l m []
    rw [← utf8Len_append] at word
    rw [splitOnAux, if_pos ((atEnd_of_valid (l ++ m) []).mpr rfl), word]
    simp
  | cons d r ih =>
    have inside : ¬Pos.Raw.atEnd (ofList (l ++ m ++ d :: r)) ⟨utf8Len (l ++ m)⟩ = true := by
      rw [atEnd_of_valid]
      exact List.cons_ne_nil d r
    have here := get_of_valid (l ++ m) (d :: r)
    have after := next_of_valid (l ++ m) d r
    have separator : Pos.Raw.get (singleton c) 0 = c := by
      rw [singleton_eq_ofList]
      exact get_of_valid [] [c]
    have separated : Pos.Raw.next (singleton c) 0 = ⟨c.utf8Size⟩ := by
      rw [singleton_eq_ofList]
      have := next_of_valid [] c []
      simpa using this
    have ended : Pos.Raw.atEnd (singleton c) ⟨c.utf8Size⟩ = true := by
      rw [singleton_eq_ofList]
      have := (atEnd_of_valid [c] []).mpr rfl
      simpa using this
    rw [splitOnAux, if_neg inside, here, after, separator, separated, List.headD_cons]
    have length : utf8Len (l ++ m) + d.utf8Size = utf8Len (l ++ m ++ [d]) := by
      rw [utf8Len_append (l ++ m), utf8Len_cons, utf8Len_nil, Nat.zero_add]
    by_cases same : d = c
    · subst same
      have back : (⟨utf8Len (l ++ m) + d.utf8Size⟩ : Pos.Raw).unoffsetBy ⟨d.utf8Size⟩ =
          ⟨utf8Len (l ++ m)⟩ := Pos.Raw.ext (Nat.add_sub_cancel _ _)
      have word := extract_of_valid l m (d :: r)
      rw [← utf8Len_append] at word
      have rest := ih (l ++ m ++ [d]) [] (ofList m :: done)
      rw [List.append_nil, List.append_assoc (l ++ m), List.singleton_append] at rest
      rw [if_pos (beq_self_eq_true d), if_pos ended, back, word, length, rest,
        List.splitOnPPrepend_cons_pos (p := (· == d)) (beq_self_eq_true d)]
      simp
    · have rest := ih l (m ++ [d]) done
      rw [← List.append_assoc l, List.append_assoc (l ++ m), List.singleton_append] at rest
      have stay : (⟨utf8Len (l ++ m)⟩ : Pos.Raw).unoffsetBy 0 = ⟨utf8Len (l ++ m)⟩ := rfl
      rw [if_neg (by simpa using same), stay, after, length, rest,
        List.splitOnPPrepend_cons_neg (p := (· == c)) (by simpa using same)]
      simp

theorem splitOn_singleton (s : String) (c : Char) :
    s.splitOn (singleton c) = (s.toList.splitOn c).map ofList := by
  have nonempty : (singleton c == "") = false := by simp
  rw [splitOn, nonempty, if_neg Bool.false_ne_true, List.splitOn_eq_splitOnP]
  simpa using splitOnAux_singleton c [] [] s.toList []

theorem splitOn_inj {s t : String} (h : s.splitOn (singleton c) = t.splitOn (singleton c)) :
    s = t := by
  rw [splitOn_singleton, splitOn_singleton] at h
  have words : s.toList.splitOn c = t.toList.splitOn c :=
    List.map_injective_iff.mpr (fun _ _ => ofList_injective) h
  have whole : [c].intercalate (s.toList.splitOn c) = s.toList := List.intercalate_splitOn c
  rw [words, List.intercalate_splitOn] at whole
  exact String.toList_inj.mp whole.symm

/-- A text without the separator is one word. -/
theorem splitOn_of_notMem {s : String} (h : c ∉ s.toList) : s.splitOn (singleton c) = [s] := by
  rw [splitOn_singleton, List.splitOn_eq_singleton h, List.map_singleton, ofList_toList]

theorem splitOn_append (s t : String) :
    (s ++ singleton c ++ t).splitOn (singleton c) =
      s.splitOn (singleton c) ++ t.splitOn (singleton c) := by
  simp only [splitOn_singleton, String.toList_append, toList_singleton, List.append_assoc,
    List.singleton_append, List.splitOn_append_cons_self, List.map_append]

theorem intercalate_inj {l m : List String} (hl : l ≠ []) (hm : m ≠ [])
    (plain : ∀ word ∈ l ++ m, c ∉ word.toList)
    (h : (singleton c).intercalate l = (singleton c).intercalate m) : l = m := by
  have texts := congrArg String.toList h
  rw [toList_intercalate, toList_intercalate, toList_singleton] at texts
  have back {k : List String} (hk : k ≠ []) (free : ∀ word ∈ k, c ∉ word.toList) :
      ([c].intercalate (k.map String.toList)).splitOn c = k.map String.toList := by
    refine List.splitOn_intercalate c ?_ (by simpa using hk)
    intro word member
    obtain ⟨s, hs, rfl⟩ := List.mem_map.mp member
    exact free s hs
  have words := congrArg (List.splitOn c) texts
  rw [back hl fun word member => plain word (List.mem_append_left m member),
    back hm fun word member => plain word (List.mem_append_right l member)] at words
  exact List.map_injective_iff.mpr (fun _ _ => String.toList_inj.mp) words

end Words
