import Relayna.Contracts.Aliases

/-!
# Renaming there and back

Each of the loops over the alias map takes the entries one after the other. In a bijective map no
two entries share a name, so what an entry does to its two fields it does whatever the others do:
`Acts` says what one round does to the two fields, and that it leaves the rest alone, and
`Acts.foldl_slot` makes of it what the loop does. There and back again is then a matter of one
entry.
-/
namespace Relayna.Contracts

open Python

namespace Fields

variable {β : Type} {d : Fields β} {key : String}

theorem lookup_pop_self : (d.pop key).lookup key = none :=
  lookup_eq_none (by simpa using has_pop.not.mpr fun h : _ ∧ key ≠ key => h.2 rfl)

theorem keys_pop (keys : (d.map Prod.fst).Nodup) : ((d.pop key).map Prod.fst).Nodup :=
  keys.sublist (List.filter_sublist.map _)

end Fields

variable {text : Text} {aliasConfig : Option ContractAliasConfig} {aliases : Fields String}
  {data event : Fields Value} {entry other : String × String} {key : String}

/-! ## One entry -/

/-- The canonical field of an entry and its alias. -/
def slot (data : Fields Value) (entry : String × String) : Option Value × Option Value :=
  (data.lookup entry.1, data.lookup entry.2)

/-- `round` changes nothing but the two fields of its entry, and these as `act` says. -/
structure Acts (round : Fields Value → String × String → Fields Value)
    (act : Option Value × Option Value → Option Value × Option Value) : Prop where
  frame : ∀ {data entry key}, key ≠ entry.1 → key ≠ entry.2 →
    (round data entry).lookup key = data.lookup key
  slot : ∀ {data entry}, entry.2 ≠ entry.1 → slot (round data entry) entry = act (slot data entry)

/-- One round of `denormalize_contract_aliases(..., alias_only=True)`. -/
def moveField (data : Fields Value) (entry : String × String) : Fields Value :=
  match data.lookup entry.1 with
  | none | some .none => data
  | some v => (data.set entry.2 v).pop entry.1

def moved : Option Value × Option Value → Option Value × Option Value
  | (none, old) => (none, old)
  | (some .none, old) => (some .none, old)
  | (some v, _) => (none, some v)

def named : Option Value × Option Value → Option Value × Option Value
  | (none, old) => (old, old)
  | (some v, old) => (some v, old)

def dropped : Option Value × Option Value → Option Value × Option Value
  | (none, old) => (none, old)
  | (some v, _) => (some v, none)

/-- To the alias and back. -/
theorem dropped_named_moved (v : Option Value) :
    dropped (named (moved (v, none))) = (v, none) := by
  rcases v with _ | v
  · rfl
  · cases v <;> rfl

theorem moveField_acts : Acts moveField moved where
  frame ne ne' := by
    unfold moveField
    split
    · rfl
    · rfl
    · rw [Fields.lookup_pop_ne ne, Fields.lookup_set_ne ne']
  slot ne := by
    unfold moveField
    split
    · rename_i h
      rw [slot, h]
      rfl
    · rename_i h
      rw [slot, h]
      rfl
    · rename_i v given h
      rw [slot, slot, h, Fields.lookup_pop_self, Fields.lookup_pop_ne ne, Fields.lookup_set_self]
      cases v with
      | none => exact (given rfl).elim
      | _ => rfl

theorem nameField_acts : Acts nameField named where
  frame ne _ := by
    unfold nameField
    split
    · rfl
    · split
      · exact Fields.lookup_set_ne ne
      · rfl
  slot {data entry} ne := by
    unfold nameField
    split
    · rename_i has
      rw [← Fields.lookup_isSome] at has
      obtain ⟨v, hv⟩ := Option.isSome_iff_exists.mp has
      rw [slot, hv]
      rfl
    · rename_i absent
      have none_ : data.lookup entry.1 = none := Fields.lookup_eq_none (by simpa using absent)
      split
      · rename_i v hv
        rw [slot, slot, none_, hv, Fields.lookup_set_self, Fields.lookup_set_ne ne, hv]
        rfl
      · rename_i hv
        rw [slot, none_, hv]
        rfl

theorem dropAlias_acts : Acts dropAlias dropped where
  frame _ ne := by
    unfold dropAlias
    split
    · exact Fields.lookup_pop_ne ne
    · rfl
  slot {data entry} ne := by
    unfold dropAlias
    split
    · rename_i has
      rw [← Fields.lookup_isSome] at has
      obtain ⟨v, hv⟩ := Option.isSome_iff_exists.mp has
      rw [slot, slot, hv, Fields.lookup_pop_ne ne.symm, hv, Fields.lookup_pop_self]
      rfl
    · rename_i absent
      have none_ : data.lookup entry.1 = none := Fields.lookup_eq_none (by simpa using absent)
      rw [slot, none_]
      rfl

/-! ## The whole map -/

/-- Neither name of an entry is a name of another one. -/
def NamesApart (entry other : String × String) : Prop :=
  entry.1 ≠ other.1 ∧ entry.1 ≠ other.2 ∧ entry.2 ≠ other.1 ∧ entry.2 ≠ other.2

theorem NamesApart.symm (h : NamesApart entry other) : NamesApart other entry :=
  ⟨h.1.symm, h.2.2.1.symm, h.2.1.symm, h.2.2.2.symm⟩

namespace Acts

variable {round : Fields Value → String × String → Fields Value}
  {act : Option Value × Option Value → Option Value × Option Value}

theorem foldl_frame (h : Acts round act)
    (free : ∀ entry ∈ aliases, key ≠ entry.1 ∧ key ≠ entry.2) :
    (aliases.foldl round data).lookup key = data.lookup key := by
  induction aliases generalizing data with
  | nil => rfl
  | cons entry aliases ih =>
    obtain ⟨ne, ne'⟩ := free entry List.mem_cons_self
    rw [List.foldl_cons, ih fun e he => free e (List.mem_cons_of_mem _ he), h.frame ne ne']

theorem slot_other (h : Acts round act) (apart : NamesApart entry other) :
    Contracts.slot (round data other) entry = Contracts.slot data entry :=
  Prod.ext (h.frame apart.1 apart.2.1) (h.frame apart.2.2.1 apart.2.2.2)

/-- The loop does to an entry what its own round does. -/
theorem foldl_slot (h : Acts round act) (apart : aliases.Pairwise NamesApart)
    (proper : ∀ entry ∈ aliases, entry.2 ≠ entry.1) (mem : entry ∈ aliases) :
    Contracts.slot (aliases.foldl round data) entry = act (Contracts.slot data entry) := by
  induction aliases generalizing data with
  | nil => cases mem
  | cons first aliases ih =>
    obtain ⟨others, apart⟩ := List.pairwise_cons.mp apart
    rw [List.foldl_cons]
    rcases List.mem_cons.mp mem with rfl | later
    · have free : ∀ e ∈ aliases, entry.1 ≠ e.1 ∧ entry.1 ≠ e.2 := fun e he =>
        ⟨(others e he).1, (others e he).2.1⟩
      have free' : ∀ e ∈ aliases, entry.2 ≠ e.1 ∧ entry.2 ≠ e.2 := fun e he =>
        (others e he).2.2
      rw [Contracts.slot, h.foldl_frame free, h.foldl_frame free']
      exact h.slot (proper entry List.mem_cons_self)
    · rw [ih apart (fun e he => proper e (List.mem_cons_of_mem _ he)) later,
        h.slot_other (others entry later).symm]

end Acts

theorem aliasMap_keys (aliasConfig : Option ContractAliasConfig) :
    ((aliasMap aliasConfig).map Prod.fst).Nodup := by
  cases aliasConfig with
  | none => decide
  | some config => exact Fields.keys_update (by decide)

/-- No two fields have one alias, and no alias is a field that has an alias. -/
structure Bijective (aliasConfig : Option ContractAliasConfig) : Prop where
  distinct : ((aliasMap aliasConfig).map Prod.snd).Nodup
  apart : AliasesApart (aliasMap aliasConfig)

namespace Bijective

variable (bijective : Bijective aliasConfig)

include bijective

theorem proper : ∀ entry ∈ aliasMap aliasConfig, entry.2 ≠ entry.1 := fun entry he =>
  bijective.apart entry he entry he

theorem namesApart : (aliasMap aliasConfig).Pairwise NamesApart := by
  have keys := List.pairwise_map.mp (aliasMap_keys aliasConfig)
  have others := List.pairwise_map.mp bijective.distinct
  refine (keys.and others).imp_of_mem fun {entry other} he ho differ => ?_
  exact ⟨differ.1, (bijective.apart other ho entry he).symm, bijective.apart entry he other ho,
    differ.2⟩

end Bijective

theorem denormalizeContractAliases_eq : denormalizeContractAliases event aliasConfig true =
    (aliasMap aliasConfig).foldl moveField event :=
  rfl

/-- There and back, before the conversion of `task_id`. -/
theorem lookup_renamed_denormalize (bijective : Bijective aliasConfig)
    (free : ∀ entry ∈ aliasMap aliasConfig, event.has entry.2 = false) :
    (renamed aliasConfig (denormalizeContractAliases event aliasConfig true)).lookup key =
      event.lookup key := by
  rw [denormalizeContractAliases_eq, renamed]
  by_cases known : ∃ entry ∈ aliasMap aliasConfig, key = entry.1 ∨ key = entry.2
  · obtain ⟨entry, he, here⟩ := known
    have apart := bijective.namesApart
    have proper := bijective.proper
    have absent : event.lookup entry.2 = none := Fields.lookup_eq_none (free entry he)
    have start : slot event entry = (event.lookup entry.1, none) := Prod.ext rfl absent
    have same : slot ((aliasMap aliasConfig).foldl dropAlias ((aliasMap aliasConfig).foldl nameField
        ((aliasMap aliasConfig).foldl moveField event))) entry = (event.lookup entry.1, none) := by
      rw [dropAlias_acts.foldl_slot apart proper he, nameField_acts.foldl_slot apart proper he,
        moveField_acts.foldl_slot apart proper he, start, dropped_named_moved]
    obtain ⟨first, second⟩ := Prod.mk.inj same
    obtain rfl | rfl := here
    · exact first
    · exact second.trans absent.symm
  · have other : ∀ entry ∈ aliasMap aliasConfig, key ≠ entry.1 ∧ key ≠ entry.2 := fun entry he =>
      not_or.mp fun here => known ⟨entry, he, here⟩
    rw [dropAlias_acts.foldl_frame other, nameField_acts.foldl_frame other,
      moveField_acts.foldl_frame other]

/-! ## The conversion of `task_id` -/

/-- A `task_id` that the conversion leaves as it is. -/
def TaskIdKept (data : Fields Value) : Prop :=
  ∀ v, data.lookup "task_id" = some v → v = .none ∨ ∃ s, v = .str s

theorem lookup_normalizeContractAliases (kept : TaskIdKept (renamed aliasConfig event)) :
    (normalizeContractAliases text event aliasConfig).lookup key =
      (renamed aliasConfig event).lookup key := by
  rw [normalizeContractAliases_eq]
  split
  · rfl
  · rfl
  · rename_i v given hv
    obtain rfl | ⟨s, rfl⟩ := kept v hv
    · exact (given rfl).elim
    · rw [text.str_str]
      by_cases same : key = "task_id"
      · rw [same, Fields.lookup_set_self, hv]
      · exact Fields.lookup_set_ne same

/-- Normalisation undoes the renaming. -/
theorem normalize_denormalize (bijective : Bijective aliasConfig)
    (free : ∀ entry ∈ aliasMap aliasConfig, event.has entry.2 = false)
    (kept : TaskIdKept event) :
    (normalizeContractAliases text (denormalizeContractAliases event aliasConfig true)
      aliasConfig).lookup key = event.lookup key := by
  have back (key : String) : (renamed aliasConfig
      (denormalizeContractAliases event aliasConfig true)).lookup key = event.lookup key :=
    lookup_renamed_denormalize bijective free
  rw [lookup_normalizeContractAliases fun v hv => kept v ((back _).symm.trans hv), back]

/-! ## Normalising twice -/

theorem keys_nameField (once : (data.map Prod.fst).Nodup) :
    ((nameField data entry).map Prod.fst).Nodup := by
  unfold nameField
  split
  · exact once
  · split
    · exact Fields.keys_set once
    · exact once

theorem keys_dropAlias (once : (data.map Prod.fst).Nodup) :
    ((dropAlias data entry).map Prod.fst).Nodup := by
  unfold dropAlias
  split
  · exact Fields.keys_pop once
  · exact once

theorem keys_foldl {round : Fields Value → String × String → Fields Value}
    (h : ∀ {data entry}, (data.map Prod.fst).Nodup → ((round data entry).map Prod.fst).Nodup)
    (once : (data.map Prod.fst).Nodup) : ((aliases.foldl round data).map Prod.fst).Nodup := by
  induction aliases generalizing data with
  | nil => exact once
  | cons entry aliases ih => exact ih (h once)

theorem keys_renamed (once : (event.map Prod.fst).Nodup) :
    ((renamed aliasConfig event).map Prod.fst).Nodup := by
  have named : ((aliasMap aliasConfig).foldl nameField event |>.map Prod.fst).Nodup :=
    keys_foldl keys_nameField once
  exact keys_foldl keys_dropAlias named

theorem keys_normalize (once : (event.map Prod.fst).Nodup) :
    ((normalizeContractAliases text event aliasConfig).map Prod.fst).Nodup := by
  rw [normalizeContractAliases_eq]
  split
  · exact keys_renamed once
  · exact keys_renamed once
  · exact Fields.keys_set (keys_renamed once)

theorem taskIdKept_normalize : TaskIdKept (normalizeContractAliases text event aliasConfig) := by
  rw [normalizeContractAliases_eq]
  split
  · rename_i h
    intro v hv
    rw [h] at hv
    cases hv
  · rename_i h
    intro v hv
    exact Or.inl (Option.some.inj (hv.symm.trans h))
  · intro v hv
    rw [Fields.lookup_set_self] at hv
    exact Or.inr ⟨_, (Option.some.inj hv).symm⟩

theorem normalize_normalize (apart : AliasesApart (aliasMap aliasConfig))
    (once : (event.map Prod.fst).Nodup) :
    normalizeContractAliases text (normalizeContractAliases text event aliasConfig) aliasConfig =
      normalizeContractAliases text event aliasConfig :=
  normalizeContractAliases_self (keys_normalize once)
    (fun _ he => has_normalizeContractAliases apart he) taskIdKept_normalize

end Relayna.Contracts
