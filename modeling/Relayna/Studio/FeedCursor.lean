import Relayna.Foundation.Texts
import Relayna.Studio.FailedTaskFeeds

/-!
# The cursor of an answer

An answer writes its positions into its cursor, and the next call reads the same positions from it.
-/
namespace Relayna.Studio.FailedTaskFeeds

open Python Contracts

/-- What `json` and `base64` are relied on for. -/
structure Codec.Faithful (codec : Codec) : Prop where
  loads_encode : ∀ positions : Fields Position, (positions.map Prod.fst).Nodup →
    codec.loads (codec.encode (cursorValue positions)) = some (cursorValue positions)
  encode_ne : ∀ positions : Fields Position, codec.encode (cursorValue positions) ≠ ""

theorem positionOf_value (p : Position) : positionOf p.value = some p := by
  obtain ⟨cursor, skip, done⟩ := p
  have natural : ¬(skip : Int) < 0 := by omega
  cases cursor <;> cases done <;>
    simp [positionOf, Position.value, skipOf, cursorOf, Value.get, List.lookup_cons, Value.truthy,
      natural]

theorem mapM_positionOf (positions : Fields Position) :
    (positions.map fun p => (p.1, p.2.value)).mapM
      (fun v => (positionOf v.2).map (v.1, ·)) = some positions := by
  induction positions with
  | nil => rfl
  | cons p positions ih =>
    rw [List.map_cons, List.mapM_cons, positionOf_value, ih]
    rfl

theorem Codec.Faithful.decodeCursor {codec : Codec} (h : codec.Faithful)
    {positions : Fields Position} (nodup : (positions.map Prod.fst).Nodup) :
    codec.decodeCursor (some (codec.encode (cursorValue positions))) = some (positions, 0) := by
  have version : ((cursorValue positions).get "version").any isTwo = true := rfl
  have held : (cursorValue positions).get "positions" =
      some (.dict (positions.map fun p => (p.1, p.2.value))) := rfl
  simp only [Codec.decodeCursor, h.encode_ne, if_false, h.loads_encode positions nodup, version,
    if_true, held, mapM_positionOf, Option.map_some]

/-! ## Texts of some cursors -/

/-- `json` and `base64` on the cursors of a table; all others have a text of their own. -/
noncomputable def tableCodec (table : List (Value × String)) : Codec where
  encode := Texts.write table
  loads := Texts.read table
  loadsUtf8 _ := none

theorem tableCodec_faithful {table : List (Value × String)} (reversible : Texts.Reversible table) :
    (tableCodec table).Faithful where
  loads_encode _ _ := Texts.read_write reversible _
  encode_ne _ := Texts.write_ne reversible _

end Relayna.Studio.FailedTaskFeeds
