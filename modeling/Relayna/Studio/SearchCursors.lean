import Mathlib.Data.List.Sort
import Relayna.Contracts.Aliases
import Relayna.Foundation.Texts
import Relayna.Foundation.Walks

/-!
# Search cursors

A search answers a page at a time. The cursor of a page is a dictionary of texts, the position of
its last item, written as JSON in base64; `_decode_cursor` keeps what is text in a dictionary that
it is given. Both searches look the position up among the items, by equality of dictionaries.
-/
namespace Relayna.Studio.Search

open Python Contracts

/-- `json` and `base64`. -/
structure CursorCodec where
  /-- A dictionary of texts whose keys are in order. -/
  write : Fields String → String
  /-- `none` when `_decode_cursor` catches an exception of one of them. -/
  read : String → Option Value
  read_write : ∀ payload,
    read (write payload) = some (.dict (payload.map fun field => (field.1, .str field.2)))
  write_ne : ∀ payload, write payload ≠ ""

namespace CursorCodec

variable (c : CursorCodec)

/-- `_encode_cursor`; the keys are sorted. -/
def encodeCursor (payload : Fields String) : String :=
  c.write (payload.insertionSort fun a b => a.1 ≤ b.1)

def textOf : Value → Option String
  | .str text => some text
  | _ => none

/-- `_decode_cursor`; `none` is a `ValueError`. -/
def decodeCursor (cursor : String) : Option (Fields String) :=
  match c.read cursor with
  | some (.dict fields) => some (fields.filterMap fun f => (textOf f.2).map (f.1, ·))
  | _ => none

/-- `==` of dictionaries. -/
def sameDict (a b : Fields String) : Bool := a.Perm b

/-- The items after the one at the position of the cursor, and all of them when there is none. -/
def after {α : Type} (position : α → Fields String) (items : List α) (cursor : Option String) :
    Option (List α) :=
  match cursor.filter (· ≠ "") with
  | none => some items
  | some text =>
    (c.decodeCursor text).map fun decoded =>
      items.drop ((items.findIdx? fun item => sameDict decoded (position item)).elim 0 (· + 1))

/-- `_paginate_task_documents` and `_paginate_service_documents`, which differ in the position of
an item; `none` is a `ValueError`. -/
def paginate {α : Type} (position : α → Fields String) (items : List α) (limit : Int)
    (cursor : Option String) : Option (List α × Option String) :=
  (c.after position items cursor).map fun left =>
    let page := left.take (max 1 limit).toNat
    (page, if page.length < left.length then
      page.getLast?.map fun last => c.encodeCursor (position last) else none)

variable {c}

/-- A cursor is read as the position that it was made of. -/
theorem decode_encode (payload : Fields String) :
    c.decodeCursor (c.encodeCursor payload) =
      some (payload.insertionSort fun a b => a.1 ≤ b.1) := by
  have texts (l : Fields String) :
      (l.map fun f => (f.1, Value.str f.2)).filterMap (fun f => (textOf f.2).map (f.1, ·)) = l := by
    rw [List.filterMap_map]
    exact List.filterMap_some
  rw [decodeCursor, encodeCursor, c.read_write]
  exact congrArg some (texts _)

theorem sameDict_encoded {payload other : Fields String} :
    sameDict (payload.insertionSort fun a b => a.1 ≤ b.1) other = true ↔ payload.Perm other := by
  rw [sameDict, decide_eq_true_iff]
  have sorted := List.perm_insertionSort (fun a b : String × String => a.1 ≤ b.1) payload
  exact ⟨sorted.symm.trans, sorted.trans⟩

section Pages

variable {α : Type} {position : α → Fields String}

/-- A cursor leaves what comes after the item that it was made of. -/
theorem after_encoded {above rest : List α} {a : α}
    (absent : ∀ b ∈ above, ¬(position a).Perm (position b)) :
    c.after position (above ++ a :: rest) (some (c.encodeCursor (position a))) = some rest := by
  have given : (some (c.encodeCursor (position a))).filter (· ≠ "") =
      some (c.encodeCursor (position a)) := by
    rw [Option.filter_eq_some_iff]
    exact ⟨rfl, decide_eq_true (c.write_ne _)⟩
  have place : (above ++ a :: rest).findIdx? (fun item =>
      sameDict ((position a).insertionSort fun x y => x.1 ≤ y.1) (position item)) =
        some above.length := by
    rw [List.findIdx?_append, List.findIdx?_eq_none_iff.mpr fun b hb => ?_, List.findIdx?_cons,
      if_pos (sameDict_encoded.mpr (List.Perm.refl _)), Option.none_or, Option.map_some,
      Nat.zero_add]
    · exact Bool.eq_false_iff.mpr fun same => absent b hb (sameDict_encoded.mp same)
  rw [after, given]
  dsimp only
  rw [decode_encode, Option.map_some, place, Option.elim_some, ← List.drop_drop, List.drop_left]
  rfl

theorem paginate_eq (items : List α) (limit : Int) (cursor : Option String) :
    c.paginate position items limit cursor = (c.after position items cursor).map
      (Pages.cut (fun item => c.encodeCursor (position item)) (max 1 limit).toNat) := by
  unfold paginate
  refine congrArg (Option.map · _) (funext fun left => ?_)
  have size : (max 1 limit).toNat < left.length ↔
      (left.take (max 1 limit).toNat).length < left.length := by
    rw [List.length_take]
    omega
  simp only [Pages.cut, size]

/-- Whatever the size of the pages, they make up the items. -/
theorem walk_paginate {items : List α} {limit : Int}
    (distinct : items.Pairwise fun a b => ¬(position b).Perm (position a)) :
    Pages.Walk (c.paginate position items limit) none items := by
  refine Pages.walk_cut _ (by omega : 1 ≤ (max 1 limit).toNat) (paginate_eq ..) ?_
  rintro above a rest rfl
  have absent : ∀ b ∈ above, ¬(position a).Perm (position b) := fun b hb =>
    (List.pairwise_append.mp distinct).2.2 b hb a List.mem_cons_self
  rw [paginate_eq, after_encoded absent]
  rfl

end Pages

/-! ## Texts of some cursors -/

/-- A dictionary of texts, as JSON is read. -/
def dictOf (payload : Fields String) : Value :=
  .dict (payload.map fun field => (field.1, .str field.2))

/-- The cursors of a table are written as it says. -/
noncomputable def ofTable (table : List (Value × String)) (h : Texts.Reversible table) :
    CursorCodec where
  write payload := Texts.write table (dictOf payload)
  read := Texts.read table
  read_write _ := Texts.read_write h _
  write_ne _ := Texts.write_ne h _

end CursorCodec

end Relayna.Studio.Search
