import Mathlib.Data.List.Chain
import Mathlib.Data.List.DropRight
import Relayna.Contracts.Aliases
import Relayna.Foundation.Names
import Relayna.Studio.Registry

/-!
# Names of services at the gateway

`_gateway_safe_service_name` makes a slug of a service id. Ids that make the same slug get a
fingerprint of the id behind it, so do ids that make none. Whether a slug with a fingerprint is the
slug of another id is not looked at.

`str.lower` and the fingerprint are parameters. The registry's `health` is kept here.
-/
namespace Relayna.Studio.Gateway

open Python Contracts

/-- A letter or digit of a slug. -/
def slugChar (c : Char) : Bool := ('a' ≤ c && c ≤ 'z') || ('0' ≤ c && c ≤ '9')

/-- `re.sub(r"[^a-z0-9]+", "-", ...)`; `inRun` says that a run of other characters has begun. -/
def subRuns (inRun : Bool) : List Char → List Char
  | [] => []
  | c :: cs =>
    if slugChar c then c :: subRuns false cs
    else if inRun then subRuns true cs
    else '-' :: subRuns true cs

structure Builtins where
  lower : String → String
  /-- `sha256(value).hexdigest()[:8]`. -/
  fingerprint : String → String
  fingerprint_length : ∀ value, (fingerprint value).toList.length = 8
  fingerprint_hex : ∀ value, ∀ c ∈ (fingerprint value).toList, slugChar c = true

structure ServiceRecord extends Registry.ServiceRecord where
  health : Option Value

structure GatewayServiceExport where
  studioServiceId : String
  name : String
  displayName : String
  baseUrl : String
  environment : String
  tags : List String
  authMode : String
  status : String
  capabilities : Fields Value
  defaultRoutePattern : String

def statusName : Registry.ServiceStatus → String
  | .registered => "registered"
  | .healthy => "healthy"
  | .unavailable => "unavailable"
  | .disabled => "disabled"

/-- `_gateway_service_status`. -/
def ServiceRecord.gatewayStatus (r : ServiceRecord) : String :=
  match r.health.bind fun health => health.get "overall_status" with
  | some (.str overall) => if strip overall = "" then statusName r.status else strip overall
  | _ => statusName r.status

namespace Builtins

variable (c : Builtins)

/-- `_gateway_safe_service_name`. -/
def safeServiceName (value : String) : String :=
  String.ofList (stripChars (· = '-') (subRuns false (c.lower (strip value)).toList))

/-- `_gateway_safe_service_name(service_id) or "service"`. -/
def baseName (serviceId : String) : String :=
  if c.safeServiceName serviceId = "" then "service" else c.safeServiceName serviceId

def baseNames (records : List ServiceRecord) : Fields String :=
  Fields.update [] (records.map fun r => (r.serviceId, c.baseName r.serviceId))

/-- The name of a service whose base name is taken that often. -/
def nameOf (count : Nat) (serviceId : String) : String :=
  if count = 1 ∧ c.safeServiceName serviceId ≠ "" then c.baseName serviceId
  else c.baseName serviceId ++ "-" ++ c.fingerprint serviceId

/-- `_gateway_unique_service_names`. -/
def uniqueServiceNames (records : List ServiceRecord) : Fields String :=
  let baseNames := c.baseNames records
  baseNames.map fun entry =>
    (entry.1, c.nameOf ((baseNames.map Prod.snd).count entry.2) entry.1)

/-- `gateway_service_export_from_record`. -/
def exportFromRecord (r : ServiceRecord) (gatewayName : Option String) : GatewayServiceExport :=
  let name := (gatewayName.bind nonEmpty).getD
    ((nonEmpty (c.safeServiceName r.serviceId)).getD ("service-" ++ c.fingerprint r.serviceId))
  { studioServiceId := r.serviceId
    name
    displayName := r.name
    baseUrl := r.baseUrl
    environment := r.environment
    tags := r.tags
    authMode := r.authMode
    status := r.gatewayStatus
    capabilities := r.capabilities.getD []
    defaultRoutePattern := "/services/" ++ name ++ "/*" }

/-- `gateway_service_exports_from_records`. -/
def exportsFromRecords (records : List ServiceRecord) : List GatewayServiceExport :=
  let uniqueNames := c.uniqueServiceNames records
  records.map fun r => c.exportFromRecord r (uniqueNames.lookup r.serviceId)

end Builtins

/-! ## Slugs -/

/-- Lower-case letters and digits with single hyphens between them. -/
structure Slug (cs : List Char) : Prop where
  nonempty : cs ≠ []
  chars : ∀ c ∈ cs, slugChar c = true ∨ c = '-'
  first : cs.head? ≠ some '-'
  last : cs.getLast? ≠ some '-'
  apart : cs.IsChain fun a b => a = '-' → b ≠ '-'

theorem mem_subRuns {inRun : Bool} {cs : List Char} {c : Char} (h : c ∈ subRuns inRun cs) :
    slugChar c = true ∨ c = '-' := by
  induction cs generalizing inRun with
  | nil => cases h
  | cons d cs ih =>
    unfold subRuns at h
    split_ifs at h with slug run
    · rcases List.mem_cons.mp h with rfl | h
      · exact Or.inl slug
      · exact ih h
    · exact ih h
    · rcases List.mem_cons.mp h with rfl | h
      · exact Or.inr rfl
      · exact ih h

/-- A run has been replaced, and no hyphen follows until there is a slug character. -/
theorem subRuns_apart (inRun : Bool) (cs : List Char) :
    (subRuns inRun cs).IsChain (fun a b => a = '-' → b ≠ '-') ∧
      (inRun = true → (subRuns inRun cs).head? ≠ some '-') := by
  induction cs generalizing inRun with
  | nil => simp [subRuns]
  | cons d cs ih =>
    unfold subRuns
    split_ifs with slug run
    · have other : d ≠ '-' := by
        rintro rfl
        exact absurd slug (by decide)
      refine ⟨?_, fun _ => by simpa using other⟩
      rw [List.isChain_cons]
      exact ⟨fun _ _ here => absurd here other, (ih false).1⟩
    · exact ⟨(ih true).1, fun _ => (ih true).2 rfl⟩
    · refine ⟨?_, fun here => absurd here (by simpa using run)⟩
      rw [List.isChain_cons]
      refine ⟨fun b hb _ => ?_, (ih true).1⟩
      rintro rfl
      exact (ih true).2 rfl hb

theorem slug_of_strip {cs : List Char} (chars : ∀ c ∈ cs, slugChar c = true ∨ c = '-')
    (apart : cs.IsChain fun a b => a = '-' → b ≠ '-') (kept : stripChars (· = '-') cs ≠ []) :
    Slug (stripChars (· = '-') cs) := by
  have whole : stripChars (· = '-') cs = (cs.dropWhile (· = '-')).rdropWhile (· = '-') := rfl
  have front := List.rdropWhile_prefix (fun c : Char => c = '-') (l := cs.dropWhile (· = '-'))
  have inside : stripChars (· = '-') cs <:+: cs :=
    front.isInfix.trans (List.dropWhile_suffix _).isInfix
  refine ⟨kept, fun c hc => chars c (inside.subset hc), fun hyphen => ?_, fun hyphen => ?_,
    apart.infix inside⟩
  · obtain ⟨tail, split⟩ := front
    have first : (cs.dropWhile (· = '-')).head? = some '-' := by
      rw [← split, ← whole, List.head?_append, hyphen, Option.some_or]
    have := List.head?_dropWhile_not (fun c : Char => c = '-') cs
    rw [first] at this
    simp at this
  · rw [whole] at kept hyphen
    have := List.rdropWhile_last_not (fun c : Char => c = '-') _ kept
    rw [List.getLast?_eq_some_getLast kept] at hyphen
    rw [Option.some.inj hyphen] at this
    simp at this

/-- A slug with digits behind a hyphen. -/
theorem Slug.append {cs ds : List Char} (h : Slug cs) (nonempty : ds ≠ [])
    (digits : ∀ c ∈ ds, slugChar c = true) : Slug (cs ++ '-' :: ds) := by
  have other {c : Char} (hc : c ∈ ds) : c ≠ '-' := by
    rintro rfl
    exact absurd (digits _ hc) (by decide)
  refine ⟨by simp, fun c hc => ?_, ?_, ?_, ?_⟩
  · rcases List.mem_append.mp hc with hc | hc
    · exact h.chars c hc
    · exact (List.mem_cons.mp hc).elim Or.inr fun hc => Or.inl (digits c hc)
  · rw [List.head?_append_of_ne_nil _ h.nonempty]
    exact h.first
  · rw [List.getLast?_append_of_ne_nil _ (List.cons_ne_nil _ _), List.getLast?_cons,
      List.getLast?_eq_some_getLast nonempty]
    exact fun here => other (List.getLast_mem nonempty) (Option.some.inj here)
  · rw [List.isChain_append]
    refine ⟨h.apart, ?_, ?_⟩
    · rw [List.isChain_cons]
      refine ⟨fun b hb _ => other (List.mem_of_mem_head? hb), ?_⟩
      exact List.Pairwise.isChain (List.pairwise_of_forall_mem_list fun a ha b _ same =>
        absurd same (other ha))
    · intro a ha b _ same
      exact absurd (same ▸ ha) h.last

namespace Builtins

variable {c : Builtins} {records records' : List ServiceRecord} {r r' : ServiceRecord}
  {serviceId : String} {count : Nat}

theorem slug_safeServiceName (named : c.safeServiceName serviceId ≠ "") :
    Slug (c.safeServiceName serviceId).toList := by
  rw [safeServiceName, String.toList_ofList]
  refine slug_of_strip (fun _ => mem_subRuns) (subRuns_apart _ _).1 fun empty => named ?_
  rw [safeServiceName, empty]

theorem slug_baseName : Slug (c.baseName serviceId).toList := by
  unfold baseName
  split_ifs with empty
  · have chars : ("service".toList.all fun c => slugChar c) = true := by decide
    exact ⟨by decide, fun c hc => Or.inl (List.all_eq_true.mp chars c hc), by decide, by decide,
      by decide⟩
  · exact slug_safeServiceName empty

theorem slug_nameOf : Slug (c.nameOf count serviceId).toList := by
  unfold nameOf
  split_ifs
  · exact slug_baseName
  · have whole : (c.baseName serviceId ++ "-" ++ c.fingerprint serviceId).toList =
        (c.baseName serviceId).toList ++ '-' :: (c.fingerprint serviceId).toList := by simp
    rw [whole]
    refine slug_baseName.append (fun empty => ?_) (c.fingerprint_hex serviceId)
    have := c.fingerprint_length serviceId
    rw [empty] at this
    cases this

/-! ## Names of a list of records -/

/-- How many services have the base name of the service. -/
def shares (c : Builtins) (records : List ServiceRecord) (r : ServiceRecord) : Nat :=
  (records.map fun r => c.baseName r.serviceId).count (c.baseName r.serviceId)

def gatewayName (c : Builtins) (records : List ServiceRecord) (r : ServiceRecord) : String :=
  c.nameOf (c.shares records r) r.serviceId

theorem baseNames_eq (distinct : (records.map (·.serviceId)).Nodup) :
    c.baseNames records = records.map fun r => (r.serviceId, c.baseName r.serviceId) := by
  rw [baseNames, Fields.update_of_nodup, List.nil_append]
  simpa [Function.comp_def] using distinct

theorem lookup_uniqueServiceNames (distinct : (records.map (·.serviceId)).Nodup)
    (hr : r ∈ records) :
    (c.uniqueServiceNames records).lookup r.serviceId = some (c.gatewayName records r) := by
  rw [uniqueServiceNames, baseNames_eq distinct]
  refine Fields.lookup_of_mem ?_ ?_
  · simpa [Function.comp_def] using distinct
  · simp only [List.map_map, List.mem_map, Function.comp]
    exact ⟨r, hr, rfl⟩

theorem nameOf_ne : c.nameOf count serviceId ≠ "" := by
  intro empty
  exact slug_nameOf.nonempty (by rw [empty]; rfl)

theorem gatewayName_ne : c.gatewayName records r ≠ "" := nameOf_ne

theorem name_exports (distinct : (records.map (·.serviceId)).Nodup) :
    (c.exportsFromRecords records).map (fun e => (e.studioServiceId, e.name)) =
      records.map fun r => (r.serviceId, c.gatewayName records r) := by
  rw [exportsFromRecords, List.map_map]
  refine List.map_congr_left fun r hr => ?_
  simp only [Function.comp, lookup_uniqueServiceNames distinct hr, exportFromRecord,
    Option.bind_some, nonEmpty]
  rw [if_neg gatewayName_ne]
  rfl

/-! ## When they are unique -/

/-- The name of the service has a fingerprint. -/
def Fingerprinted (c : Builtins) (records : List ServiceRecord) (r : ServiceRecord) : Prop :=
  ¬(c.shares records r = 1 ∧ c.safeServiceName r.serviceId ≠ "")

instance (c : Builtins) (records : List ServiceRecord) (r : ServiceRecord) :
    Decidable (c.Fingerprinted records r) := inferInstanceAs (Decidable (¬_))

/-- No slug of an id is the slug of another id with its fingerprint. -/
def NoClash (c : Builtins) (records : List ServiceRecord) : Prop :=
  ∀ r ∈ records, ∀ r' ∈ records, c.Fingerprinted records r → ¬c.Fingerprinted records r' →
    c.baseName r'.serviceId ≠ c.baseName r.serviceId ++ "-" ++ c.fingerprint r.serviceId

instance (c : Builtins) (records : List ServiceRecord) : Decidable (c.NoClash records) :=
  inferInstanceAs (Decidable (∀ r ∈ records, ∀ r' ∈ records, c.Fingerprinted records r →
    ¬c.Fingerprinted records r' →
      c.baseName r'.serviceId ≠ c.baseName r.serviceId ++ "-" ++ c.fingerprint r.serviceId))

theorem gatewayName_of (h : c.Fingerprinted records r) : c.gatewayName records r =
    c.baseName r.serviceId ++ "-" ++ c.fingerprint r.serviceId := if_neg h

theorem gatewayName_of_not (h : ¬c.Fingerprinted records r) :
    c.gatewayName records r = c.baseName r.serviceId := if_pos (not_not.mp h)

/-- A value that is counted once has one preimage. -/
theorem eq_of_count_map {α β : Type} [DecidableEq β] {f : α → β} {l : List α} {a b : α}
    (ha : a ∈ l) (hb : b ∈ l) (once : (l.map f).count (f a) = 1) (same : f a = f b) : a = b := by
  rw [List.count_eq_countP, List.countP_map, List.countP_eq_length_filter,
    List.length_eq_one_iff] at once
  obtain ⟨only, filtered⟩ := once
  have found {x : α} (hx : x ∈ l) (named : f x = f a) : x = only := by
    refine List.mem_singleton.mp (filtered ▸ List.mem_filter.mpr ⟨hx, ?_⟩)
    exact beq_iff_eq.mpr named
  exact (found ha rfl).trans (found hb same.symm).symm

theorem eq_of_shares (hr : r ∈ records) (hr' : r' ∈ records) (once : c.shares records r = 1)
    (same : c.baseName r.serviceId = c.baseName r'.serviceId) : r = r' := by
  rw [shares] at once
  apply eq_of_count_map (f := fun r => c.baseName r.serviceId) hr hr'
  · exact once
  · exact same

theorem shares_perm (perm : records.Perm records') : c.shares records r = c.shares records' r :=
  (perm.map _).count_eq _

theorem gatewayName_inj (noClash : c.NoClash records)
    (injective : ∀ r ∈ records, ∀ r' ∈ records,
      c.fingerprint r.serviceId = c.fingerprint r'.serviceId → r = r')
    (hr : r ∈ records) (hr' : r' ∈ records)
    (same : c.gatewayName records r = c.gatewayName records r') : r = r' := by
  by_cases printed : c.Fingerprinted records r <;>
    by_cases printed' : c.Fingerprinted records r'
  · rw [gatewayName_of printed, gatewayName_of printed'] at same
    refine injective r hr r' hr' (String.toList_inj.mp ?_)
    have length : (c.fingerprint r.serviceId).toList.length =
        (c.fingerprint r'.serviceId).toList.length := by
      rw [c.fingerprint_length, c.fingerprint_length]
    have texts := congrArg String.toList same
    simp only [String.toList_append] at texts
    exact List.append_inj_right' texts length
  · rw [gatewayName_of printed, gatewayName_of_not printed'] at same
    exact absurd same.symm (noClash r hr r' hr' printed printed')
  · rw [gatewayName_of_not printed, gatewayName_of printed'] at same
    exact absurd same (noClash r' hr' r hr printed' printed)
  · rw [gatewayName_of_not printed, gatewayName_of_not printed'] at same
    exact eq_of_shares hr hr' (not_not.mp printed).1 same

end Builtins

/-- What the gateway relies on. -/
structure UniqueNames (c : Builtins) (records : List ServiceRecord) : Prop where
  names : ((c.exportsFromRecords records).map (·.name)).Nodup
  patterns : ((c.exportsFromRecords records).map (·.defaultRoutePattern)).Nodup
  slugs : ∀ e ∈ c.exportsFromRecords records, Slug e.name.toList
  order : ∀ records', records.Perm records' → ∀ e ∈ c.exportsFromRecords records,
    ∀ e' ∈ c.exportsFromRecords records', e.studioServiceId = e'.studioServiceId → e.name = e'.name

namespace Builtins

variable {c : Builtins} {records records' : List ServiceRecord}

theorem names_exports (distinct : (records.map (·.serviceId)).Nodup) :
    (c.exportsFromRecords records).map (·.name) = records.map (c.gatewayName records) := by
  have pairs := congrArg (List.map Prod.snd) (name_exports (c := c) distinct)
  rw [List.map_map, List.map_map] at pairs
  exact pairs

/-- An exported service is that of a record. -/
theorem exists_of_mem_exports (distinct : (records.map (·.serviceId)).Nodup)
    {e : GatewayServiceExport} (he : e ∈ c.exportsFromRecords records) :
    ∃ r ∈ records, e.studioServiceId = r.serviceId ∧ e.name = c.gatewayName records r := by
  have pair : (e.studioServiceId, e.name) ∈
      records.map fun r => (r.serviceId, c.gatewayName records r) := by
    rw [← name_exports distinct]
    exact List.mem_map_of_mem he
  obtain ⟨r, hr, made⟩ := List.mem_map.mp pair
  exact ⟨r, hr, (congrArg Prod.fst made).symm, (congrArg Prod.snd made).symm⟩

theorem patterns_exports :
    (c.exportsFromRecords records).map (·.defaultRoutePattern) =
      ((c.exportsFromRecords records).map (·.name)).map fun name =>
        "/services/" ++ name ++ "/*" := by
  rw [exportsFromRecords, List.map_map, List.map_map, List.map_map]
  exact List.map_congr_left fun r _ => rfl

theorem pattern_injective :
    Function.Injective fun name : String => "/services/" ++ name ++ "/*" := by
  intro a b equal
  have texts := congrArg String.toList equal
  simp only [String.toList_append] at texts
  exact String.toList_inj.mp (List.append_cancel_left (List.append_cancel_right texts))

end Builtins

/-- The names are unique unless the slug of an id is that of another with its fingerprint. -/
theorem gateway_names_unique_iff (c : Builtins) (records : List ServiceRecord)
    (distinct : (records.map (·.serviceId)).Nodup)
    (injective : ∀ r ∈ records, ∀ r' ∈ records,
      c.fingerprint r.serviceId = c.fingerprint r'.serviceId → r.serviceId = r'.serviceId) :
    UniqueNames c records ↔ c.NoClash records := by
  have same {r r' : ServiceRecord} (hr : r ∈ records) (hr' : r' ∈ records)
      (id : r.serviceId = r'.serviceId) : r = r' := List.inj_on_of_nodup_map distinct hr hr' id
  constructor
  · intro unique r hr r' hr' printed printed' clash
    have nodup := unique.names
    rw [Builtins.names_exports distinct] at nodup
    have equal : c.gatewayName records r = c.gatewayName records r' := by
      rw [Builtins.gatewayName_of printed, Builtins.gatewayName_of_not printed', clash]
    exact printed' (List.inj_on_of_nodup_map nodup hr hr' equal ▸ printed)
  · intro noClash
    have nodup : ((c.exportsFromRecords records).map (·.name)).Nodup := by
      rw [Builtins.names_exports distinct]
      refine List.Nodup.map_on (fun r hr r' hr' equal => ?_) (List.Nodup.of_map _ distinct)
      exact Builtins.gatewayName_inj noClash
        (fun r hr r' hr' printed => same hr hr' (injective r hr r' hr' printed)) hr hr' equal
    refine ⟨nodup, ?_, fun e he => ?_, fun records' perm e he e' he' id => ?_⟩
    · rw [Builtins.patterns_exports]
      exact nodup.map Builtins.pattern_injective
    · obtain ⟨r, -, -, name⟩ := Builtins.exists_of_mem_exports distinct he
      rw [name]
      exact Builtins.slug_nameOf
    · have distinct' : (records'.map (·.serviceId)).Nodup := (perm.map _).nodup_iff.mp distinct
      obtain ⟨r, hr, rid, name⟩ := Builtins.exists_of_mem_exports distinct he
      obtain ⟨r', hr', rid', name'⟩ := Builtins.exists_of_mem_exports distinct' he'
      obtain rfl : r = r' := same hr (perm.mem_iff.mpr hr') (by rw [← rid, id, rid'])
      rw [name, name', Builtins.gatewayName, Builtins.gatewayName, Builtins.shares_perm perm]

/-- The fingerprints of three ids that are lower-case already. -/
def sampleFingerprint (value : String) : String :=
  if value = "a b" then "c8687a08" else if value = "a-b" then "d44362d6" else "315128a4"

theorem sampleFingerprint_digits (value : String) : (sampleFingerprint value).toList.length = 8 ∧
    ∀ c ∈ (sampleFingerprint value).toList, slugChar c = true := by
  unfold sampleFingerprint
  split_ifs <;> exact ⟨by decide, List.all_eq_true.mp (by decide)⟩

def sampleBuiltins : Builtins where
  lower := id
  fingerprint := sampleFingerprint
  fingerprint_length value := (sampleFingerprint_digits value).1
  fingerprint_hex value := (sampleFingerprint_digits value).2

def sampleService (serviceId : String) : ServiceRecord where
  serviceId := serviceId
  name := serviceId
  baseUrl := "http://" ++ serviceId
  environment := "prod"
  tags := []
  authMode := "none"
  status := .registered
  capabilities := none
  lastSeenAt := none
  logConfig := none
  metricsConfig := none
  traceConfig := none
  health := none

def sampleServices : List ServiceRecord := [sampleService "a b", sampleService "a-b"]

def clashingServices : List ServiceRecord := sampleServices ++ [sampleService "a-b-c8687a08"]

theorem sample_names_unique : UniqueNames sampleBuiltins sampleServices ∧
    (sampleBuiltins.exportsFromRecords sampleServices).map (·.name) =
      ["a-b-c8687a08", "a-b-d44362d6"] := by
  have noClash : sampleBuiltins.NoClash sampleServices := by decide +kernel
  have unique := gateway_names_unique_iff sampleBuiltins sampleServices (by decide) (by decide)
  exact ⟨unique.mpr noClash, by decide +kernel⟩

/-- The third id is the slug of the first with its fingerprint. -/
theorem clashing_names :
    (clashingServices.map (·.serviceId)).Nodup ∧
      (∀ r ∈ clashingServices, ∀ r' ∈ clashingServices,
        sampleBuiltins.fingerprint r.serviceId = sampleBuiltins.fingerprint r'.serviceId →
          r.serviceId = r'.serviceId) ∧
      ¬UniqueNames sampleBuiltins clashingServices := by
  refine ⟨by decide, by decide, fun unique => ?_⟩
  have names : (sampleBuiltins.exportsFromRecords clashingServices).map (·.name) =
      ["a-b-c8687a08", "a-b-d44362d6", "a-b-c8687a08"] := by decide +kernel
  have nodup := unique.names
  rw [names] at nodup
  exact absurd nodup (by decide)

end Relayna.Studio.Gateway
