import Mathlib.Data.List.Nodup
import Mathlib.Data.Set.Countable
import Mathlib.Logic.Equiv.List
import Mathlib.Tactic.DeriveCountable
import Relayna.Foundation.Documents
import Relayna.Foundation.Keyed

/-!
# Texts that can be read back

The values of a countable type, written as texts: those of a table as the table says, and the
others as texts of their own. The values of Python are countable.
-/
namespace Texts

theorem countable_string : Countable String := by
  have char : Countable Char := Function.Injective.countable (f := Char.toNat) fun a b same =>
    Char.ext (UInt32.toNat_inj.mp same)
  exact Function.Injective.countable (f := String.toList) fun a b same => String.toList_inj.mp same

section Table

variable {α : Type*} [Countable α] [DecidableEq α] {table : List (α × String)} {a : α}

/-- A number for all values. -/
noncomputable def number (a : α) : Nat := (exists_injective_nat α).choose a

theorem number_injective : Function.Injective (number : α → Nat) :=
  (exists_injective_nat α).choose_spec

noncomputable def write (table : List (α × String)) (a : α) : String :=
  (table.lookup a).getD (String.ofList (List.replicate (number a + 1) '!'))

noncomputable def read (table : List (α × String)) (text : String) : Option α :=
  match table.find? (·.2 = text) with
  | some entry => some entry.1
  | none => Function.partialInv number (text.length - 1)

/-- The texts of the table differ, and none of them begins as the other texts do. -/
structure Reversible (table : List (α × String)) : Prop where
  texts : (table.map Prod.snd).Nodup
  apart : ∀ entry ∈ table, entry.2.toList.head?.any (· ≠ '!') = true

theorem reversible_nil : Reversible ([] : List (α × String)) where
  texts := List.nodup_nil
  apart _ h := absurd h List.not_mem_nil

theorem mem_of_lookup {text : String} (h : table.lookup a = some text) : (a, text) ∈ table := by
  obtain ⟨before, after, split, -⟩ := List.lookup_eq_some_iff.mp h
  rw [split]
  simp

theorem read_write (h : Reversible table) (a : α) : read table (write table a) = some a := by
  cases found : table.lookup a with
  | some text =>
    have back : table.find? (·.2 = text) = some (a, text) :=
      Keyed.get?_of_mem h.texts (mem_of_lookup found)
    simp only [write, found, Option.getD_some, read, back]
  | none =>
    have absent : table.find?
        (·.2 = String.ofList (List.replicate (number a + 1) '!')) = none := by
      refine List.find?_eq_none.mpr fun entry hentry same => ?_
      have := h.apart entry hentry
      rw [decide_eq_true_eq] at same
      simp [same, List.replicate_succ] at this
    simp only [write, found, Option.getD_none, read, absent, String.length_ofList,
      List.length_replicate, Nat.add_sub_cancel, Function.partialInv_left number_injective]

theorem write_ne (h : Reversible table) (a : α) : write table a ≠ "" := by
  cases found : table.lookup a with
  | some text =>
    have := h.apart _ (mem_of_lookup found)
    rw [write, found, Option.getD_some]
    rintro rfl
    simp at this
  | none =>
    rw [write, found, Option.getD_none]
    intro same
    have := congrArg String.length same
    simp at this

end Table

end Texts

namespace Python

/-! ## The values of Python are countable -/

deriving instance Countable for FiniteFloat, Float

theorem countable_uint8 : Countable UInt8 :=
  Function.Injective.countable (f := UInt8.toNat) fun _ _ => UInt8.toNat_inj.mp

/-- There are countably many values of each size. -/
theorem countable_sizeOf (n : Nat) : {v : Value | sizeOf v < n}.Countable := by
  have := Texts.countable_string
  have := countable_uint8
  induction n with
  | zero => simp
  | succ n ih =>
    have := ih.to_subtype
    have atoms : ({.none} ∪ Set.range Value.bool ∪ Set.range Value.int ∪ Set.range Value.float ∪
        Set.range (Function.uncurry Value.decimal) ∪ Set.range Value.str ∪ Set.range Value.bytes ∪
        Set.range Value.datetime).Countable := by
      simp [Set.countable_range]
    have lists := Set.countable_range fun xs : List {v : Value | sizeOf v < n} =>
      Value.list (xs.map Subtype.val)
    have dicts := Set.countable_range fun fields : List (String × {v : Value | sizeOf v < n}) =>
      Value.dict (fields.map (Prod.map id Subtype.val))
    refine ((atoms.union lists).union dicts).mono fun v small => ?_
    rw [Set.mem_setOf_eq] at small
    cases v with
    | list xs =>
      have inside (x) (h : x ∈ xs) : sizeOf x < n := by
        have below := List.sizeOf_lt_of_mem h
        rw [Value.list.sizeOf_spec] at small
        omega
      exact Or.inl (Or.inr ⟨xs.attachWith _ inside,
        congrArg Value.list (List.attachWith_map_subtype_val _)⟩)
    | dict fields =>
      have inside (field) (h : field ∈ fields) : sizeOf field.2 < n := by
        have below := List.sizeOf_lt_of_mem h
        rw [Value.dict.sizeOf_spec] at small
        rw [Prod.mk.sizeOf_spec] at below
        omega
      refine Or.inr ⟨fields.pmap (fun field h => (field.1, ⟨field.2, h⟩)) inside, ?_⟩
      simp [List.map_pmap]
    | _ => simp

instance : Countable Value := by
  refine Set.countable_univ_iff.mp ((Set.countable_iUnion countable_sizeOf).mono fun v _ => ?_)
  exact Set.mem_iUnion.mpr ⟨sizeOf v + 1, Nat.lt_succ_self _⟩

end Python
