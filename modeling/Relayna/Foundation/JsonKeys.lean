import Mathlib.Data.List.Nodup
import Mathlib.Data.List.Sort
import Relayna.Foundation.Json

/-!
# Values with the same JSON text

`json.dumps(value, sort_keys=True, separators=(",", ":"), default=str)` forgets the order of keys
and nothing else: two values have the same text if and only if they agree, key by key and item by
item.
-/
namespace Json

open Python

/-- A finite float in multiples of the smallest one. -/
def multiple (f : FiniteFloat) : Int := f.mantissa * 2 ^ (f.exponent + 1074).toNat

def sortFields (fields : List (String × Document)) : List (String × Document) :=
  fields.insertionSort fun a b => a.1 ≤ b.1

mutual

/-- The document of a value. What JSON has no text for is written as its `str`. -/
def canonical (str : Value → String) : Value → Document
  | .none => .null
  | .bool b => .bool b
  | .int i => .int i
  | .float .nan => .nan
  | .float (.inf negative) => .inf negative
  | .float (.finite f) => .float (multiple f)
  | .str s => .str s
  | .list xs => .list (canonicalList str xs)
  | .dict fields => .dict (sortFields (canonicalFields str fields))
  | .decimal unscaled scale => .str (str (.decimal unscaled scale))
  | .bytes b => .str (str (.bytes b))
  | .datetime microseconds => .str (str (.datetime microseconds))

def canonicalList (str : Value → String) : List Value → List Document
  | [] => []
  | v :: xs => canonical str v :: canonicalList str xs

def canonicalFields (str : Value → String) : List (String × Value) → List (String × Document)
  | [] => []
  | (key, v) :: fields => (key, canonical str v) :: canonicalFields str fields

end

/-- `json.dumps(value, sort_keys=True, separators=(",", ":"), default=str)`. -/
def dumps (x : FloatRepr) (str : Value → String) (v : Value) : String :=
  String.ofList (render x (canonical str v))

theorem dumps_inj {x : FloatRepr} {str : Value → String} {v w : Value} :
    dumps x str v = dumps x str w ↔ canonical str v = canonical str w := by
  refine ⟨fun h => render_injective (String.ofList_injective h), fun h => ?_⟩
  rw [dumps, h, dumps]

/-! ## Agreement -/

mutual

/-- JSON values: their keys are texts and differ. -/
def IsJson : Value → Prop
  | .list xs => IsJsonList xs
  | .dict fields => (fields.map Prod.fst).Nodup ∧ IsJsonFields fields
  | .decimal .. | .bytes _ | .datetime _ => False
  | _ => True

def IsJsonList : List Value → Prop
  | [] => True
  | v :: xs => IsJson v ∧ IsJsonList xs

def IsJsonFields : List (String × Value) → Prop
  | [] => True
  | (_, v) :: fields => IsJson v ∧ IsJsonFields fields

end

mutual

/-- Two values are the same, whatever the order of their keys. -/
def Agree : Value → Value → Prop
  | .list xs, .list ys => AgreeList xs ys
  | .dict d, .dict e => (∀ key, key ∈ d.map Prod.fst ↔ key ∈ e.map Prod.fst) ∧ AgreeFields d e
  | .float (.finite f), .float (.finite g) => multiple f = multiple g
  | v, w => v = w

def AgreeList : List Value → List Value → Prop
  | [], [] => True
  | v :: xs, w :: ys => Agree v w ∧ AgreeList xs ys
  | _, _ => False

/-- Every field agrees with the field of its name. -/
def AgreeFields : List (String × Value) → List (String × Value) → Prop
  | [], _ => True
  | (key, v) :: d, e => (∀ w, (key, w) ∈ e → Agree v w) ∧ AgreeFields d e

end

theorem isJson_of_mem {fields : List (String × Value)} (h : IsJsonFields fields) {key : String}
    {v : Value} (mem : (key, v) ∈ fields) : IsJson v := by
  induction fields with
  | nil => cases mem
  | cons f fields ih =>
    rw [IsJsonFields] at h
    rcases List.mem_cons.mp mem with rfl | rest
    · exact h.1
    · exact ih h.2 rest

/-! ## Sorted fields -/

theorem sortFields_perm (d : List (String × Document)) : (sortFields d).Perm d :=
  List.perm_insertionSort _ d

theorem sorted_sortFields (d : List (String × Document)) :
    (sortFields d).Pairwise fun a b => a.1 ≤ b.1 := by
  have total : Std.Total fun a b : String × Document => a.1 ≤ b.1 := ⟨fun a b => le_total a.1 b.1⟩
  have trans : IsTrans (String × Document) fun a b => a.1 ≤ b.1 := ⟨fun _ _ _ => le_trans⟩
  exact List.pairwise_insertionSort _ d

theorem sortFields_eq_iff {d e : List (String × Document)} (hd : (d.map Prod.fst).Nodup)
    (he : (e.map Prod.fst).Nodup) :
    sortFields d = sortFields e ↔ ∀ entry, entry ∈ d ↔ entry ∈ e := by
  constructor
  · intro same entry
    rw [← (sortFields_perm d).mem_iff, same, (sortFields_perm e).mem_iff]
  · intro same
    have perm : d.Perm e := (List.perm_ext_iff_of_nodup hd.of_map he.of_map).mpr same
    refine List.Perm.eq_of_pairwise ?_ (sorted_sortFields d) (sorted_sortFields e)
      ((sortFields_perm d).trans (perm.trans (sortFields_perm e).symm))
    intro a b ha hb ab ba
    have ha' : a ∈ d := (sortFields_perm d).mem_iff.mp ha
    have hb' : b ∈ d := (same b).mpr ((sortFields_perm e).mem_iff.mp hb)
    exact List.inj_on_of_nodup_map hd ha' hb' (le_antisymm ab ba)

variable {str : Value → String}

theorem canonicalFields_eq (fields : List (String × Value)) :
    canonicalFields str fields = fields.map fun f => (f.1, canonical str f.2) := by
  induction fields with
  | nil => rfl
  | cons f fields ih => rw [canonicalFields, ih, List.map_cons]

theorem keys_canonicalFields (fields : List (String × Value)) :
    (canonicalFields str fields).map Prod.fst = fields.map Prod.fst := by
  rw [canonicalFields_eq, List.map_map]
  rfl

/-- Sorted fields are the same if the keys are and every two values of one key. -/
theorem sortFields_canonical_iff {d e : List (String × Value)} (hd : (d.map Prod.fst).Nodup)
    (he : (e.map Prod.fst).Nodup) :
    sortFields (canonicalFields str d) = sortFields (canonicalFields str e) ↔
      (∀ key, key ∈ d.map Prod.fst ↔ key ∈ e.map Prod.fst) ∧
        ∀ f ∈ d, ∀ w, (f.1, w) ∈ e → canonical str f.2 = canonical str w := by
  rw [sortFields_eq_iff (by rwa [keys_canonicalFields]) (by rwa [keys_canonicalFields])]
  constructor
  · intro same
    constructor
    · intro key
      have names (d : List (String × Value)) :
          d.map Prod.fst = (canonicalFields str d).map Prod.fst := (keys_canonicalFields d).symm
      rw [names d, names e, List.mem_map, List.mem_map]
      exact exists_congr fun entry => and_congr_left fun _ => same entry
    · intro f hf w hw
      have mem : (f.1, canonical str f.2) ∈ canonicalFields str e := by
        rw [← same, canonicalFields_eq]
        exact List.mem_map.mpr ⟨f, hf, rfl⟩
      have mem' : (f.1, canonical str w) ∈ canonicalFields str e := by
        rw [canonicalFields_eq]
        exact List.mem_map.mpr ⟨(f.1, w), hw, rfl⟩
      have keys : ((canonicalFields str e).map Prod.fst).Nodup := by rwa [keys_canonicalFields]
      exact congrArg Prod.snd (List.inj_on_of_nodup_map keys mem mem' rfl)
  · rintro ⟨keys, values⟩ entry
    rw [canonicalFields_eq, canonicalFields_eq, List.mem_map, List.mem_map]
    constructor
    · rintro ⟨f, hf, rfl⟩
      obtain ⟨⟨key, w⟩, hw, rfl⟩ := List.mem_map.mp ((keys f.1).mp (List.mem_map_of_mem hf))
      exact ⟨_, hw, by rw [values f hf w hw]⟩
    · rintro ⟨f, hf, rfl⟩
      obtain ⟨⟨key, v⟩, hv, same⟩ := List.mem_map.mp ((keys f.1).mpr (List.mem_map_of_mem hf))
      dsimp only at same
      subst same
      exact ⟨_, hv, by rw [values _ hv f.2 hf]⟩

/-! ## The same document -/

mutual

theorem canonical_eq_iff : ∀ {v w : Value}, IsJson v → IsJson w →
    (canonical str v = canonical str w ↔ Agree v w)
  | .list xs, w, hv, hw => by
    cases w with
    | list ys =>
      rw [IsJson] at hv hw
      rw [canonical, canonical, Agree, Document.list.injEq]
      exact canonicalList_eq_iff hv hw
    | float f => cases f <;> simp [canonical, Agree]
    | decimal | bytes | datetime => simp [IsJson] at hw
    | _ => simp [canonical, Agree]
  | .dict d, w, hv, hw => by
    cases w with
    | dict e =>
      rw [IsJson] at hv hw
      rw [canonical, canonical, Agree, Document.dict.injEq, sortFields_canonical_iff hv.1 hw.1]
      exact and_congr_right fun _ => canonicalFields_iff hv.2 hw.2
    | float f => cases f <;> simp [canonical, Agree]
    | decimal | bytes | datetime => simp [IsJson] at hw
    | _ => simp [canonical, Agree]
  | .none, w, hv, hw => by
    cases w with
    | float f => cases f <;> simp [canonical, Agree]
    | decimal | bytes | datetime => simp [IsJson] at hw
    | _ => simp [canonical, Agree]
  | .bool b, w, hv, hw => by
    cases w with
    | float f => cases f <;> simp [canonical, Agree]
    | decimal | bytes | datetime => simp [IsJson] at hw
    | _ => simp [canonical, Agree]
  | .int i, w, hv, hw => by
    cases w with
    | float f => cases f <;> simp [canonical, Agree]
    | decimal | bytes | datetime => simp [IsJson] at hw
    | _ => simp [canonical, Agree]
  | .float f, w, hv, hw => by
    cases w with
    | float g => cases f <;> cases g <;> simp [canonical, Agree]
    | decimal | bytes | datetime => simp [IsJson] at hw
    | _ => cases f <;> simp [canonical, Agree]
  | .str s, w, hv, hw => by
    cases w with
    | float f => cases f <;> simp [canonical, Agree]
    | decimal | bytes | datetime => simp [IsJson] at hw
    | _ => simp [canonical, Agree]
  | .decimal .., _, hv, _ => by simp [IsJson] at hv
  | .bytes _, _, hv, _ => by simp [IsJson] at hv
  | .datetime _, _, hv, _ => by simp [IsJson] at hv

theorem canonicalList_eq_iff : ∀ {xs ys : List Value}, IsJsonList xs → IsJsonList ys →
    (canonicalList str xs = canonicalList str ys ↔ AgreeList xs ys)
  | [], [], _, _ => by simp [canonicalList, AgreeList]
  | [], _ :: _, _, _ => by simp [canonicalList, AgreeList]
  | _ :: _, [], _, _ => by simp [canonicalList, AgreeList]
  | v :: xs, w :: ys, hv, hw => by
    rw [IsJsonList] at hv hw
    rw [canonicalList, canonicalList, AgreeList, List.cons.injEq]
    exact and_congr (canonical_eq_iff hv.1 hw.1) (canonicalList_eq_iff hv.2 hw.2)

theorem canonicalFields_iff : ∀ {d e : List (String × Value)}, IsJsonFields d → IsJsonFields e →
    ((∀ f ∈ d, ∀ w, (f.1, w) ∈ e → canonical str f.2 = canonical str w) ↔ AgreeFields d e)
  | [], _, _, _ => by simp [AgreeFields]
  | (key, v) :: d, e, hd, he => by
    rw [IsJsonFields] at hd
    rw [List.forall_mem_cons, AgreeFields]
    refine and_congr (forall_congr' fun w => forall_congr' fun hw => ?_)
      (canonicalFields_iff hd.2 he)
    exact canonical_eq_iff hd.1 (isJson_of_mem he hw)

end

end Json
