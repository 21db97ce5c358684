import Relayna.Contracts.Transport
import Relayna.Foundation.Documents

/-!
# Codecs that know a few documents

A codec given by the texts of the documents that it meets. No text stands for two of them, so what
has been written is read back.
-/
namespace Relayna.Contracts

open Python

/-- The bytes of an ASCII text. -/
def ascii (text : String) : Bytes := text.toList.map fun c => UInt8.ofNat c.toNat

namespace Codec

/-- The documents of a table, and no models. -/
def tabulated (table : List (Bytes × Value)) : Codec where
  text := plainText
  fromJson body :=
    match table.lookup body with
    | some v => .ok v
    | none =>
      if body = [] then .error "EOF while parsing a value at line 1 column 0"
      else .error "expected value at line 1 column 1"
  loads _ := .error "Expecting value: line 1 column 1 (char 0)"
  validateTask _ _ := none
  validateBatch _ _ := none
  validateStatus _ _ := none
  validateWorkflow _ _ := none
  dumpTask envelope := .ok envelope.content
  dumpWorkflow envelope := .ok envelope.content
  toJson v :=
    match table.find? (·.2 = v) with
    | some entry => .ok entry.1
    | none => .error ("PydanticSerializationError", "")

variable {table : List (Bytes × Value)} {codec : Codec} {v : Value} {body : Bytes}

theorem lookup_of_mem (once : (table.map Prod.fst).Nodup) (h : (body, v) ∈ table) :
    table.lookup body = some v := by
  obtain ⟨before, after, rfl⟩ := List.append_of_mem h
  refine List.lookup_eq_some_iff.mpr ⟨before, after, rfl, fun entry member => ?_⟩
  rw [List.map_append, List.nodup_append] at once
  have other : body ≠ entry.1 := fun same =>
    once.2.2 _ (List.mem_map_of_mem member) _ List.mem_cons_self same.symm
  simpa using other

/-- What the table writes is read by a codec that reads it. -/
theorem parses_tabulated (once : (table.map Prod.fst).Nodup)
    (reads : codec.fromJson = (tabulated table).fromJson)
    (written : (tabulated table).toJson v = .ok body) : codec.parseTransportJson body = .ok v := by
  have found : table.lookup body = some v := by
    simp only [tabulated] at written
    split at written
    · next entry here =>
      obtain rfl := Except.ok.inj written
      have same := List.find?_some here
      obtain rfl : entry.2 = v := of_decide_eq_true same
      exact lookup_of_mem once (List.mem_of_find?_eq_some here)
    · cases written
  rw [parseTransportJson, reads]
  simp only [tabulated, found]

end Codec

end Relayna.Contracts
