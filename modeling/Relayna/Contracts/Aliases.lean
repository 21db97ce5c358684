import Relayna.Contracts.Transport
import Mathlib.Data.List.Nodup

/-!
# What the renaming of aliased fields does

`normalize_contract_aliases` runs two loops over the alias map. If no alias is itself a field
that has an alias, the result has no alias left, and fields without aliases are left alone.
-/
namespace Relayna.Contracts

open Python

namespace Fields

variable {β : Type} {d : Fields β} {key other : String} {v : β}

theorem has_iff : d.has key = true ↔ ∃ entry ∈ d, entry.1 = key := by
  rw [has, List.any_eq_true]
  simp only [beq_iff_eq]

theorem lookup_eq_none (h : d.has key = false) : d.lookup key = none := by
  rw [List.lookup_eq_none_iff]
  intro entry he
  by_contra same
  have : d.has key = true := has_iff.mpr ⟨entry, he, (by simpa using same : key = entry.1).symm⟩
  rw [h] at this
  cases this

theorem mem_of_lookup (h : d.lookup key = some v) : (key, v) ∈ d := by
  obtain ⟨l₁, l₂, rfl, _⟩ := List.lookup_eq_some_iff.mp h
  exact List.mem_append_right _ List.mem_cons_self

theorem has_set : (d.set key v).has other = true ↔ d.has other = true ∨ other = key := by
  unfold set
  split
  · rename_i h
    simp only [has_iff, List.mem_map, beq_iff_eq] at h ⊢
    constructor
    · rintro ⟨_, ⟨entry, he, rfl⟩, rfl⟩
      split
      · exact Or.inr rfl
      · exact Or.inl ⟨entry, he, rfl⟩
    · rintro (⟨entry, he, rfl⟩ | rfl)
      · refine ⟨_, ⟨entry, he, rfl⟩, ?_⟩
        split
        · exact Eq.symm ‹_›
        · rfl
      · obtain ⟨entry, he, rfl⟩ := h
        exact ⟨_, ⟨entry, he, rfl⟩, by simp⟩
  · simp only [has_iff, List.mem_append, List.mem_singleton]
    constructor
    · rintro ⟨entry, he | rfl, rfl⟩
      · exact Or.inl ⟨entry, he, rfl⟩
      · exact Or.inr rfl
    · rintro (⟨entry, he, rfl⟩ | rfl)
      · exact ⟨entry, Or.inl he, rfl⟩
      · exact ⟨(other, v), Or.inr rfl, rfl⟩

theorem has_pop : (d.pop key).has other = true ↔ d.has other = true ∧ other ≠ key := by
  simp only [has_iff, pop, List.mem_filter, bne_iff_ne]
  constructor
  · rintro ⟨entry, ⟨he, hne⟩, rfl⟩
    exact ⟨⟨entry, he, rfl⟩, hne⟩
  · rintro ⟨⟨entry, he, rfl⟩, hne⟩
    exact ⟨entry, ⟨he, hne⟩, rfl⟩

/-- To write what is there changes nothing. -/
theorem set_self (once : (d.map Prod.fst).Nodup) (h : d.lookup key = some v) :
    d.set key v = d := by
  have member := mem_of_lookup h
  rw [set, if_pos (has_iff.mpr ⟨_, member, rfl⟩)]
  refine (List.map_congr_left fun entry he => ?_).trans (List.map_id d)
  split
  · rename_i same
    exact (List.inj_on_of_nodup_map once he member (beq_iff_eq.mp same)).symm
  · rfl

theorem lookup_isSome : (d.lookup key).isSome = d.has key := by
  cases h : d.has key with
  | false => rw [lookup_eq_none h, Option.isSome_none]
  | true =>
    obtain ⟨entry, he, rfl⟩ := has_iff.mp h
    cases hl : d.lookup entry.1 with
    | some v => rfl
    | none => simpa using List.lookup_eq_none_iff.mp hl entry he

theorem lookup_map_ne (ne : other ≠ key) :
    (d.map fun entry => if entry.1 == key then (key, v) else entry).lookup other =
      d.lookup other := by
  have off : (other == key) = false := beq_eq_false_iff_ne.mpr ne
  induction d with
  | nil => rfl
  | cons entry d ih =>
    obtain ⟨k, b⟩ := entry
    by_cases same : k = key
    · simp only [List.map_cons, same, beq_self_eq_true, if_true, List.lookup_cons, off, ih]
    · simp only [List.map_cons, beq_eq_false_iff_ne.mpr same, Bool.false_eq_true, if_false,
        List.lookup_cons, ih]

theorem lookup_map_self (h : d.has key = true) :
    (d.map fun entry => if entry.1 == key then (key, v) else entry).lookup key = some v := by
  induction d with
  | nil => cases h
  | cons entry d ih =>
    obtain ⟨k, b⟩ := entry
    by_cases same : k = key
    · simp only [List.map_cons, same, beq_self_eq_true, if_true, List.lookup_cons]
    · have rest : has d key = true := by simpa [has, same] using h
      simp only [List.map_cons, beq_eq_false_iff_ne.mpr same, Bool.false_eq_true, if_false,
        List.lookup_cons, beq_eq_false_iff_ne.mpr (Ne.symm same), ih rest]

theorem lookup_set_ne (ne : other ≠ key) : (d.set key v).lookup other = d.lookup other := by
  unfold set
  split
  · exact lookup_map_ne ne
  · rw [List.lookup_append, List.lookup_cons, beq_eq_false_iff_ne.mpr ne, List.lookup_nil,
      Option.or_none]

theorem lookup_set_self : (d.set key v).lookup key = some v := by
  unfold set
  split
  · exact lookup_map_self ‹_›
  · rename_i absent
    rw [List.lookup_append, lookup_eq_none (by simpa using absent), List.lookup_cons_self,
      Option.none_or]

theorem mem_set {entry : String × β} (h : entry ∈ d.set key v) : entry ∈ d ∨ entry = (key, v) := by
  unfold set at h
  split at h
  · obtain ⟨old, ho, rfl⟩ := List.mem_map.mp h
    split
    · exact Or.inr rfl
    · exact Or.inl ho
  · rcases List.mem_append.mp h with old | here
    · exact Or.inl old
    · exact Or.inr (List.mem_singleton.mp here)

theorem keys_set (keys : (d.map Prod.fst).Nodup) : ((d.set key v).map Prod.fst).Nodup := by
  unfold set
  split
  · have same : (d.map fun entry => if entry.1 == key then (key, v) else entry).map Prod.fst =
        d.map Prod.fst := by
      rw [List.map_map]
      refine List.map_congr_left fun entry _ => ?_
      simp only [Function.comp]
      split
      · rename_i here
        exact (beq_iff_eq.mp here).symm
      · rfl
    rwa [same]
  · rename_i absent
    rw [List.map_append, List.map_singleton, ← List.concat_eq_append]
    refine keys.concat fun present => ?_
    obtain ⟨entry, hentry, same⟩ := List.mem_map.mp present
    exact absent (has_iff.mpr ⟨entry, hentry, same⟩)

theorem mem_keys_set :
    other ∈ (d.set key v).map Prod.fst ↔ other ∈ d.map Prod.fst ∨ other = key := by
  have found {e : Fields β} : other ∈ e.map Prod.fst ↔ e.lookup other ≠ none := by
    constructor
    · intro present none_
      obtain ⟨entry, hentry, rfl⟩ := List.mem_map.mp present
      have := List.lookup_eq_none_iff.mp none_ entry hentry
      simp at this
    · intro some_
      obtain ⟨v, hv⟩ := Option.ne_none_iff_exists'.mp some_
      exact List.mem_map.mpr ⟨_, mem_of_lookup hv, rfl⟩
  rw [found, found]
  by_cases same : other = key
  · simp [same, lookup_set_self]
  · simp [same, lookup_set_ne same]

theorem lookup_of_mem (keys : (d.map Prod.fst).Nodup) (h : (key, v) ∈ d) :
    d.lookup key = some v := by
  induction d with
  | nil => cases h
  | cons entry d ih =>
    obtain ⟨k, b⟩ := entry
    rw [List.map_cons, List.nodup_cons] at keys
    rcases List.mem_cons.mp h with here | later
    · cases here
      exact List.lookup_cons_self
    · have ne : key ≠ k := by
        rintro rfl
        exact keys.1 (List.mem_map.mpr ⟨_, later, rfl⟩)
      rw [List.lookup_cons, beq_eq_false_iff_ne.mpr ne]
      exact ih keys.2 later

theorem lookup_pop_ne (ne : other ≠ key) : (d.pop key).lookup other = d.lookup other := by
  unfold pop
  induction d with
  | nil => rfl
  | cons entry d ih =>
    obtain ⟨k, b⟩ := entry
    by_cases same : k = key
    · simp only [List.filter_cons, same, bne_self_eq_false, Bool.false_eq_true, if_false,
        List.lookup_cons, beq_eq_false_iff_ne.mpr ne, ih]
    · simp only [List.filter_cons, bne_iff_ne.mpr same, if_true, List.lookup_cons, ih]

/-- New keys are written one after another. -/
theorem update_of_nodup {e : Fields β} (keys : ((d ++ e).map Prod.fst).Nodup) :
    d.update e = d ++ e := by
  induction e generalizing d with
  | nil => rw [List.append_nil]; rfl
  | cons entry e ih =>
    have new : d.set entry.1 entry.2 = d ++ [entry] := by
      rw [Fields.set, if_neg]
      intro has
      obtain ⟨other, member, same⟩ := has_iff.mp has
      rw [List.map_append, List.map_cons, List.nodup_append] at keys
      exact keys.2.2 _ (List.mem_map_of_mem member) _ List.mem_cons_self same
    rw [List.append_cons] at keys ⊢
    rw [← ih keys, ← new]
    rfl

theorem lookup_update_of_notMem {e : Fields β} (absent : key ∉ e.map Prod.fst) :
    (d.update e).lookup key = d.lookup key := by
  unfold update
  induction e generalizing d with
  | nil => rfl
  | cons entry e ih =>
    rw [List.map_cons, List.mem_cons, not_or] at absent
    rw [List.foldl_cons, ih absent.2, lookup_set_ne absent.1]

theorem keys_update {e : Fields β} (keys : (d.map Prod.fst).Nodup) :
    ((d.update e).map Prod.fst).Nodup := by
  unfold update
  induction e generalizing d with
  | nil => exact keys
  | cons entry e ih => exact ih (keys_set keys)

theorem mem_keys_update {e : Fields β} :
    key ∈ (d.update e).map Prod.fst ↔ key ∈ (d ++ e).map Prod.fst := by
  unfold update
  induction e generalizing d with
  | nil => rw [List.foldl_nil, List.append_nil]
  | cons entry e ih =>
    rw [List.foldl_cons, ih, List.map_append, List.mem_append, mem_keys_set, List.map_append,
      List.mem_append, List.map_cons, List.mem_cons, or_assoc]

theorem mem_of_mem_update {e : Fields β} {entry : String × β} (h : entry ∈ d.update e) :
    entry ∈ d ++ e := by
  unfold update at h
  induction e generalizing d with
  | nil => rwa [List.append_nil]
  | cons first e ih =>
    rcases List.mem_append.mp (ih h) with old | later
    · rcases mem_set old with old | here
      · exact List.mem_append_left _ old
      · exact List.mem_append_right _ (here ▸ List.mem_cons_self)
    · exact List.mem_append_right _ (List.mem_cons_of_mem _ later)

/-- Nothing is overwritten exactly when no key is given two values. -/
theorem subset_update_iff {e : Fields β} (keys : (d.map Prod.fst).Nodup) :
    (∀ entry ∈ d ++ e, entry ∈ d.update e) ↔
      ∀ entry ∈ d ++ e, ∀ other ∈ d ++ e, entry.1 = other.1 → entry = other := by
  constructor
  · intro kept entry he other ho same
    exact List.inj_on_of_nodup_map (keys_update keys) (kept entry he) (kept other ho) same
  · intro agree entry he
    obtain ⟨other, ho, same⟩ :=
      List.mem_map.mp (mem_keys_update.mpr (List.mem_map_of_mem (f := Prod.fst) he))
    rwa [agree entry he other (mem_of_mem_update ho) same.symm]

end Fields

section Aliases

variable {text : Text} {event data : Fields Value} {aliasConfig : Option ContractAliasConfig}
  {aliases : Fields String} {entry : String × String} {key : String}

/-- One round of the first loop of `normalize_contract_aliases`. -/
def nameField (data : Fields Value) (entry : String × String) : Fields Value :=
  if data.has entry.1 then data
  else match data.lookup entry.2 with
    | some v => data.set entry.1 v
    | none => data

/-- One round of the second loop. -/
def dropAlias (data : Fields Value) (entry : String × String) : Fields Value :=
  if data.has entry.1 then data.pop entry.2 else data

/-- Both loops. -/
def renamed (aliasConfig : Option ContractAliasConfig) (event : Fields Value) : Fields Value :=
  (aliasMap aliasConfig).foldl dropAlias ((aliasMap aliasConfig).foldl nameField event)

theorem normalizeContractAliases_eq :
    normalizeContractAliases text event aliasConfig =
      match (renamed aliasConfig event).lookup "task_id" with
      | none | some .none => renamed aliasConfig event
      | some v => (renamed aliasConfig event).set "task_id" (.str (text.str v)) :=
  rfl

theorem has_nameField :
    (nameField data entry).has key = true ↔
      data.has key = true ∨ key = entry.1 ∧ data.has entry.2 = true := by
  unfold nameField
  split
  · rename_i h
    refine ⟨Or.inl, ?_⟩
    rintro (hk | ⟨rfl, -⟩)
    · exact hk
    · exact h
  · split
    · rename_i v hv
      rw [Fields.has_set]
      have : data.has entry.2 = true := Fields.has_iff.mpr ⟨_, Fields.mem_of_lookup hv, rfl⟩
      simp [this]
    · rename_i hv
      have : data.has entry.2 = false := by
        by_contra h
        obtain ⟨other, ho, same⟩ := Fields.has_iff.mp (by simpa using h)
        exact absurd same.symm (by simpa using List.lookup_eq_none_iff.mp hv other ho)
      simp [this]

theorem has_dropAlias :
    (dropAlias data entry).has key = true ↔
      data.has key = true ∧ ¬(key = entry.2 ∧ data.has entry.1 = true) := by
  unfold dropAlias
  split
  · rename_i h
    rw [Fields.has_pop]
    simp [h]
  · rename_i h
    simp [h]

/-- No alias is the name of a field that has an alias. -/
def AliasesApart (aliases : Fields String) : Prop :=
  ∀ entry ∈ aliases, ∀ other ∈ aliases, entry.2 ≠ other.1

theorem AliasesApart.tail (h : AliasesApart (entry :: aliases)) : AliasesApart aliases :=
  fun e he o ho => h e (List.mem_cons_of_mem _ he) o (List.mem_cons_of_mem _ ho)

theorem AliasesApart.has_foldl_nameField (apart : AliasesApart aliases) :
    (aliases.foldl nameField data).has key = true ↔
      data.has key = true ∨ ∃ entry ∈ aliases, key = entry.1 ∧ data.has entry.2 = true := by
  induction aliases generalizing data with
  | nil => simp
  | cons entry aliases ih =>
    have same : ∀ e ∈ aliases, (nameField data entry).has e.2 = true ↔ data.has e.2 = true := by
      intro e he
      rw [has_nameField]
      have := apart e (List.mem_cons_of_mem _ he) entry List.mem_cons_self
      simp [this]
    rw [List.foldl_cons, ih apart.tail, has_nameField, or_assoc, List.exists_mem_cons_iff]
    refine or_congr_right (or_congr_right (exists_congr fun e => ?_))
    exact and_congr_right fun he => and_congr_right fun _ => same e he

theorem AliasesApart.has_foldl_dropAlias (apart : AliasesApart aliases) :
    (aliases.foldl dropAlias data).has key = true ↔
      data.has key = true ∧ ¬∃ entry ∈ aliases, key = entry.2 ∧ data.has entry.1 = true := by
  induction aliases generalizing data with
  | nil => simp
  | cons entry aliases ih =>
    have same : ∀ e ∈ aliases, (dropAlias data entry).has e.1 = true ↔ data.has e.1 = true := by
      intro e he
      rw [has_dropAlias]
      have := (apart entry List.mem_cons_self e (List.mem_cons_of_mem _ he)).symm
      simp [this]
    rw [List.foldl_cons, ih apart.tail, has_dropAlias, List.exists_mem_cons_iff, not_or, and_assoc]
    refine and_congr_right fun _ => and_congr_right fun _ => not_congr (exists_congr fun e => ?_)
    exact and_congr_right fun he => and_congr_right fun _ => same e he

/-- Normalisation leaves no alias behind. -/
theorem has_normalizeContractAliases (apart : AliasesApart (aliasMap aliasConfig))
    (member : entry ∈ aliasMap aliasConfig) :
    (normalizeContractAliases text event aliasConfig).has entry.2 = false := by
  have gone : (renamed aliasConfig event).has entry.2 ≠ true := by
    rw [renamed, ne_eq, apart.has_foldl_dropAlias, not_and_not_right]
    intro named
    refine ⟨entry, member, rfl, apart.has_foldl_nameField.mpr ?_⟩
    obtain h | ⟨e, he, same, -⟩ := apart.has_foldl_nameField.mp named
    · exact Or.inr ⟨entry, member, rfl, h⟩
    · exact absurd same (apart entry member e he)
  rw [← Bool.not_eq_true, normalizeContractAliases_eq]
  split
  · exact gone
  · exact gone
  · rename_i v _ hv
    rw [Fields.has_set]
    rintro (h | same)
    · exact gone h
    · rw [same] at gone
      exact gone (Fields.has_iff.mpr ⟨_, Fields.mem_of_lookup hv, rfl⟩)

/-! ## What stays of a field -/

theorem lookup_nameField (h : data.has key = true) :
    (nameField data entry).lookup key = data.lookup key := by
  unfold nameField
  split
  · rfl
  · rename_i absent
    have ne : key ≠ entry.1 := by
      rintro rfl
      exact absent h
    split
    · exact Fields.lookup_set_ne ne
    · rfl

theorem lookup_dropAlias (h : (dropAlias data entry).has key = true) :
    (dropAlias data entry).lookup key = data.lookup key := by
  unfold dropAlias at h ⊢
  split at h
  · rw [if_pos ‹_›]
    exact Fields.lookup_pop_ne (Fields.has_pop.mp h).2
  · rw [if_neg ‹_›]

theorem lookup_foldl_nameField (h : data.has key = true) :
    (aliases.foldl nameField data).lookup key = data.lookup key := by
  induction aliases generalizing data with
  | nil => rfl
  | cons entry aliases ih =>
    rw [List.foldl_cons, ih (has_nameField.mpr (Or.inl h)), lookup_nameField h]

theorem lookup_foldl_dropAlias (h : (aliases.foldl dropAlias data).has key = true) :
    data.has key = true ∧ (aliases.foldl dropAlias data).lookup key = data.lookup key := by
  induction aliases generalizing data with
  | nil => exact ⟨h, rfl⟩
  | cons entry aliases ih =>
    obtain ⟨kept, same⟩ := ih h
    exact ⟨(has_dropAlias.mp kept).1, same.trans (lookup_dropAlias kept)⟩

/-- A field of the message that normalisation leaves has the value it had. -/
theorem lookup_renamed (present : event.has key = true)
    (h : (renamed aliasConfig event).has key = true) :
    (renamed aliasConfig event).lookup key = event.lookup key := by
  have := (lookup_foldl_dropAlias h).2
  exact this.trans (lookup_foldl_nameField present)

theorem has_normalize : (normalizeContractAliases text event aliasConfig).has key =
    (renamed aliasConfig event).has key := by
  rw [normalizeContractAliases_eq]
  split
  · rfl
  · rfl
  · rename_i v _ hv
    rw [Bool.eq_iff_iff, Fields.has_set]
    refine or_iff_left_of_imp ?_
    rintro rfl
    rw [← Fields.lookup_isSome, hv]
    rfl

theorem lookup_normalize_ne (ne : key ≠ "task_id") :
    (normalizeContractAliases text event aliasConfig).lookup key =
      (renamed aliasConfig event).lookup key := by
  rw [normalizeContractAliases_eq]
  split
  · rfl
  · rfl
  · exact Fields.lookup_set_ne ne

theorem lookup_normalize (present : event.has key = true) (ne : key ≠ "task_id")
    (h : (normalizeContractAliases text event aliasConfig).has key = true) :
    (normalizeContractAliases text event aliasConfig).lookup key = event.lookup key := by
  rw [lookup_normalize_ne ne]
  exact lookup_renamed present (has_normalize ▸ h)

theorem lookup_normalize_taskId {taskId : String}
    (given : event.lookup "task_id" = some (.str taskId))
    (h : (normalizeContractAliases text event aliasConfig).has "task_id" = true) :
    (normalizeContractAliases text event aliasConfig).lookup "task_id" = some (.str taskId) := by
  have present : event.has "task_id" = true := by
    rw [← Fields.lookup_isSome, given, Option.isSome_some]
  have same := (lookup_renamed present (has_normalize ▸ h)).trans given
  rw [normalizeContractAliases_eq, same]
  simp only
  rw [Fields.lookup_set_self, text.str_str]

theorem lookup_foldl_dropAlias_of_free {aliases : Fields String}
    (free : ∀ entry ∈ aliases, key ≠ entry.2) :
    (aliases.foldl dropAlias event).lookup key = event.lookup key := by
  induction aliases generalizing event with
  | nil => rfl
  | cons entry aliases ih =>
    have same : (dropAlias event entry).lookup key = event.lookup key := by
      unfold dropAlias
      split
      · exact Fields.lookup_pop_ne (free entry List.mem_cons_self)
      · rfl
    rw [List.foldl_cons, ih fun e he => free e (List.mem_cons_of_mem _ he), same]

/-- Normalisation leaves a field alone whose name is no alias. -/
theorem lookup_normalize_of_free {v : Value} (free : ∀ entry ∈ aliasMap aliasConfig, key ≠ entry.2)
    (ne : key ≠ "task_id") (h : event.lookup key = some v) :
    (normalizeContractAliases text event aliasConfig).lookup key = some v := by
  have present : event.has key = true := by rw [← Fields.lookup_isSome, h, Option.isSome_some]
  rw [lookup_normalize_ne ne, renamed, lookup_foldl_dropAlias_of_free free,
    lookup_foldl_nameField present, h]

/-- The built-in alias is one of `task_id`. -/
theorem lookup_normalize_default (task : key ≠ "task_id") (document : key ≠ "documentId") :
    (normalizeContractAliases text event none).lookup key = event.lookup key := by
  have named : (nameField event ("task_id", "documentId")).lookup key = event.lookup key := by
    unfold nameField
    split
    · rfl
    · split
      · exact Fields.lookup_set_ne task
      · rfl
  rw [lookup_normalize_ne task, ← named]
  change (dropAlias (nameField event ("task_id", "documentId")) ("task_id", "documentId")).lookup
    key = _
  unfold dropAlias
  split
  · exact Fields.lookup_pop_ne document
  · rfl

theorem foldl_eq_self {α β : Type} {f : α → β → α} {a : α} {l : List β}
    (h : ∀ b ∈ l, f a b = a) : l.foldl f a = a := by
  induction l with
  | nil => rfl
  | cons b l ih =>
    rw [List.foldl_cons, h b List.mem_cons_self]
    exact ih fun b' hb' => h b' (List.mem_cons_of_mem _ hb')

/-- Fields without aliases stay as they are. -/
theorem normalizeContractAliases_self (once : (event.map Prod.fst).Nodup)
    (free : ∀ entry ∈ aliasMap aliasConfig, event.has entry.2 = false)
    (taskId : ∀ v, event.lookup "task_id" = some v → v = .none ∨ ∃ s, v = .str s) :
    normalizeContractAliases text event aliasConfig = event := by
  have named : (aliasMap aliasConfig).foldl nameField event = event := by
    refine foldl_eq_self fun entry he => ?_
    unfold nameField
    rw [Fields.lookup_eq_none (free entry he)]
    split <;> rfl
  have dropped : (aliasMap aliasConfig).foldl dropAlias event = event := by
    refine foldl_eq_self fun entry he => ?_
    unfold dropAlias Fields.pop
    split
    · refine List.filter_eq_self.mpr fun e hmem => ?_
      rw [bne_iff_ne]
      intro same
      have := Fields.has_iff.mpr ⟨e, hmem, same⟩
      rw [free entry he] at this
      cases this
    · rfl
  have same : renamed aliasConfig event = event := by rw [renamed, named, dropped]
  rw [normalizeContractAliases_eq, same]
  split
  · rfl
  · rfl
  · rename_i v given hv
    obtain rfl | ⟨s, rfl⟩ := taskId v hv
    · exact (given rfl).elim
    · rw [text.str_str]
      exact Fields.set_self once hv

end Aliases

end Relayna.Contracts
