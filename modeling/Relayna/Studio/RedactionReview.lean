import Relayna.Foundation.Failing
import Relayna.Studio.Redaction

/-!
# Which masked configurations are refused

A plan is refused if one of its values is `[redacted]`. A value that is masked as a whole becomes
that; a credential inside a longer text is masked inside the text, which stays another text.
-/
namespace Relayna.Studio.Redaction

open Python Profiles Failing

variable {x : Codec} {left : Nat} {v : Value} {value : String}

/-! ## What is refused -/

theorem hasRedactionList_iff {xs : List Value} :
    hasRedactionList xs = true ↔ ∃ v ∈ xs, hasRedaction v = true := by
  induction xs with
  | nil => simp [hasRedactionList]
  | cons v xs ih => simp [hasRedactionList, ih]

theorem hasRedactionFields_iff {fields : List (String × Value)} :
    hasRedactionFields fields = true ↔ ∃ f ∈ fields, hasRedaction f.2 = true := by
  induction fields with
  | nil => simp [hasRedactionFields]
  | cons f fields ih => simp [hasRedactionFields, ih]

@[simp] theorem hasRedaction_list {xs : List Value} :
    hasRedaction (.list xs) = true ↔ ∃ v ∈ xs, hasRedaction v = true := hasRedactionList_iff

@[simp] theorem hasRedaction_dict {fields : List (String × Value)} :
    hasRedaction (.dict fields) = true ↔ ∃ f ∈ fields, hasRedaction f.2 = true :=
  hasRedactionFields_iff

@[simp] theorem hasRedaction_str {text : String} :
    hasRedaction (.str text) = true ↔ text = "[redacted]" := by simp [hasRedaction]

/-! ## Values that are masked as a whole -/

/-- A list or a dictionary of names of the environment. -/
def References (key : String) : Value → Prop
  | .list xs => key = "secretEnv" ∧ ∀ v ∈ xs, ∃ text, v = .str text ∧ isName text = true
  | .dict fields =>
    key = "headersFromEnv" ∧ ∀ f ∈ fields, ∃ text, f.2 = .str text ∧ isName text = true
  | _ => False

/-- How the values of a form are masked. -/
def maskItem (x : Codec) : Nat → String → String
  | 0, _ => "[redacted]"
  | 1, _ => "[redacted]"
  | left + 2, value => redactText x (redact x left) (redactPairs x left) value

theorem redactPairs_eq (left : Nat) (value : String) :
    redactPairs x left value = redactForm x (maskItem x left) value := by
  match left with
  | 0 => rw [redactPairs]; rfl
  | 1 => rw [redactPairs]; rfl
  | left + 2 => rw [redactPairs]; rfl

/-- The form that a form is masked to is too long. -/
def LongForm (x : Codec) (left : Nat) (value : String) : Prop :=
  '=' ∈ value.toList ∧ maskedPairs x (maskItem x left) value ≠ x.parseQsl value ∧
    maxString < (x.urlencode (maskedPairs x (maskItem x left) value)).length

/-- A text cannot be read, or what it is masked to is too long. -/
inductive WholeText (x : Codec) (n : Nat) (text : String) : Prop
  | deepDocument (h : documentIn x text = .recursionError)
  | longDocument {v : Value} (h : documentIn x text = .value v)
    (long : maxString < (maskedDocument x (redact x n) text v).length)
  | brokenUrl (plain : documentIn x text = .valueError) (http : x.looksLikeHttp text = true)
    (h : x.urlsplit (strip text) = none)
  | longUrl {parts : SplitResult} (plain : documentIn x text = .valueError)
    (http : x.looksLikeHttp text = true) (h : x.urlsplit (strip text) = some parts)
    (changes : urlChanges (redactPairs x n) parts = true)
    (long : maxString < (x.urlunsplit (maskedUrl (redactPairs x n) parts)).length)
  | longForm (plain : documentIn x text = .valueError) (other : x.looksLikeHttp text = false)
    (h : LongForm x n text)

/-- A value is masked as a whole, or it was before. -/
inductive Whole (x : Codec) : Nat → Value → Prop
  | deep (v : Value) : Whole x 0 v
  | item {n : Nat} {xs : List Value} {v : Value} (mem : v ∈ xs) (h : Whole x n v) :
    Whole x (n + 1) (.list xs)
  | secret {n : Nat} {fields : List (String × Value)} {f : String × Value} (mem : f ∈ fields)
    (kept : f.1 ∉ droppedKeys) (other : f.1 ∉ environmentKeys) (h : secretKey x f.1 = true) :
    Whole x (n + 1) (.dict fields)
  | reference {n : Nat} {fields : List (String × Value)} {f : String × Value} (mem : f ∈ fields)
    (environment : f.1 ∈ environmentKeys) (h : ¬References f.1 f.2) : Whole x (n + 1) (.dict fields)
  | field {n : Nat} {fields : List (String × Value)} {f : String × Value} (mem : f ∈ fields)
    (kept : f.1 ∉ droppedKeys) (other : f.1 ∉ environmentKeys) (h : Whole x n f.2) :
    Whole x (n + 1) (.dict fields)
  | masked {n : Nat} : Whole x (n + 1) (.str "[redacted]")
  | text {n : Nat} {text : String} (h : WholeText x n text) : Whole x (n + 1) (.str text)

/-! ## Environment references -/

theorem environmentName_eq_iff :
    environmentName v ≠ .str "[redacted]" ↔ ∃ text, v = .str text ∧ isName text = true := by
  constructor
  · intro h
    cases v with
    | str text =>
      refine ⟨text, rfl, ?_⟩
      by_contra other
      exact h (by rw [environmentName, if_neg other])
    | _ => exact absurd rfl h
  · rintro ⟨text, rfl, name⟩
    rw [environmentName, if_pos name]
    rintro ⟨⟩
    revert name
    decide

theorem hasRedaction_environmentName :
    hasRedaction (environmentName v) = true ↔ environmentName v = .str "[redacted]" := by
  cases v with
  | str text =>
    rw [environmentName]
    split_ifs <;> simp
  | _ => simp [environmentName]

theorem hasRedaction_references {key : String} (h : key ∈ environmentKeys) :
    hasRedaction (environmentReferences key v) = true ↔ ¬References key v := by
  rw [← not_iff_not, not_not]
  cases v with
  | list xs =>
    by_cases same : key = "secretEnv"
    · subst same
      simp only [environmentReferences, if_true, hasRedaction_list, List.mem_map,
        exists_exists_and_eq_and, hasRedaction_environmentName, not_exists, not_and, ← ne_eq,
        environmentName_eq_iff]
      exact ⟨fun h => ⟨rfl, h⟩, fun h => h.2⟩
    · rw [environmentReferences, if_neg same]
      exact iff_of_false (by simp) fun h => same h.1
  | dict fields =>
    by_cases same : key = "headersFromEnv"
    · subst same
      simp only [environmentReferences, if_true, hasRedaction_dict, List.mem_map,
        exists_exists_and_eq_and, hasRedaction_environmentName, not_exists, not_and, ← ne_eq,
        environmentName_eq_iff]
      exact ⟨fun h => ⟨rfl, h⟩, fun h => h.2⟩
    · rw [environmentReferences, if_neg same]
      exact iff_of_false (by simp) fun h => same h.1
  | _ => exact iff_of_false (by simp [environmentReferences]) id

/-! ## Texts -/

theorem bounded_eq_iff {result : String} (h : result ≠ "[redacted]") :
    bounded result = "[redacted]" ↔ maxString < result.length := by
  rw [bounded]
  split_ifs with short
  · exact iff_of_false h (Nat.not_lt.mpr short)
  · exact iff_of_true rfl (Nat.lt_of_not_le short)

theorem urlencode_ne {pairs : List (String × String)} (h : pairs ≠ []) :
    x.urlencode pairs ≠ "[redacted]" := by
  intro same
  have := x.mem_urlencode h
  rw [same] at this
  revert this
  decide

theorem redactPairs_eq_iff :
    redactPairs x left value = "[redacted]" ↔ value = "[redacted]" ∨ LongForm x left value := by
  rw [redactPairs_eq, redactForm]
  by_cases form : '=' ∈ value.toList
  · rw [if_neg (not_not.mpr form)]
    have pairs : maskedPairs x (maskItem x left) value ≠ x.parseQsl value →
        maskedPairs x (maskItem x left) value ≠ [] := by
      intro changed none_
      refine changed ?_
      rw [none_]
      exact (List.map_eq_nil_iff.mp none_).symm
    have unmasked : value ≠ "[redacted]" := by
      rintro rfl
      exact absurd form (by decide)
    by_cases changed : maskedPairs x (maskItem x left) value ≠ x.parseQsl value
    · rw [if_pos changed, bounded_eq_iff (urlencode_ne (pairs changed))]
      exact ⟨fun long => Or.inr ⟨form, changed, long⟩,
        fun h => (h.resolve_left unmasked).2.2⟩
    · rw [if_neg changed]
      exact ⟨Or.inl, fun h => h.resolve_right fun long => changed long.2.1⟩
  · rw [if_pos form]
    exact ⟨Or.inl, fun h => h.resolve_right fun long => form long.1⟩

theorem documentIn_redacted : documentIn x "[redacted]" = .valueError := by
  rw [documentIn, if_pos (by decide), x.loads_redacted]

theorem looksLikeHttp_redacted : x.looksLikeHttp "[redacted]" = false := by
  have stripped : strip "[redacted]" = "[redacted]" := by decide
  rw [DocumentCodec.looksLikeHttp, stripped, x.lower_redacted]
  decide

/-- A text becomes `[redacted]`. -/
theorem redactText_eq_iff :
    redactText x (redact x left) (redactPairs x left) value = "[redacted]" ↔
      value = "[redacted]" ∨ WholeText x left value := by
  unfold redactText
  cases document : documentIn x value with
  | recursionError => exact iff_of_true rfl (Or.inr (.deepDocument document))
  | value v =>
    have unmasked : value ≠ "[redacted]" := by
      rintro rfl
      rw [documentIn_redacted] at document
      cases document
    have other : maskedDocument x (redact x left) value v ≠ "[redacted]" := by
      rw [maskedDocument]
      split_ifs
      · exact x.dumps_ne _
      · exact unmasked
    dsimp only
    rw [bounded_eq_iff other]
    refine ⟨fun long => Or.inr (.longDocument document long), fun h => ?_⟩
    cases h.resolve_left unmasked with
    | longDocument found long =>
      rw [document] at found
      cases found
      exact long
    | deepDocument found | brokenUrl found | longUrl found | longForm found =>
      rw [document] at found
      cases found
  | valueError =>
    dsimp only
    cases http : x.looksLikeHttp value with
    | false =>
      rw [if_neg Bool.false_ne_true, redactPairs_eq_iff]
      refine or_congr_right ⟨fun long => .longForm document http long, fun h => ?_⟩
      cases h with
      | longForm _ _ long => exact long
      | brokenUrl _ found | longUrl _ found =>
        rw [http] at found
        cases found
      | deepDocument found | longDocument found =>
        rw [document] at found
        cases found
    | true =>
      have unmasked : value ≠ "[redacted]" := by
        rintro rfl
        rw [looksLikeHttp_redacted] at http
        cases http
      rw [if_pos rfl]
      cases split : x.urlsplit (strip value) with
      | none => exact iff_of_true rfl (Or.inr (.brokenUrl document http split))
      | some parts =>
        dsimp only
        by_cases changes : urlChanges (redactPairs x left) parts = true
        · have other : x.urlunsplit (maskedUrl (redactPairs x left) parts) ≠ "[redacted]" := by
            intro same
            have colon := x.colon_urlunsplit http split (hostOf parts.netloc)
              (redactPairs x left parts.query) (redactPairs x left parts.fragment)
            rw [maskedUrl] at same
            rw [same] at colon
            revert colon
            decide
          rw [if_pos changes, bounded_eq_iff other]
          refine ⟨fun long => Or.inr (.longUrl document http split changes long), fun h => ?_⟩
          cases h.resolve_left unmasked with
          | longUrl _ _ found _ long =>
            rw [split] at found
            cases found
            exact long
          | brokenUrl _ _ found =>
            rw [split] at found
            cases found
          | longForm _ found =>
            rw [http] at found
            cases found
          | deepDocument found | longDocument found =>
            rw [document] at found
            cases found
        · rw [if_neg changes]
          refine ⟨Or.inl, fun h => ?_⟩
          cases h.resolve_left unmasked with
          | longUrl _ _ found changed =>
            rw [split] at found
            cases found
            exact absurd changed changes
          | brokenUrl _ _ found =>
            rw [split] at found
            cases found
          | longForm _ found =>
            rw [http] at found
            cases found
          | deepDocument found | longDocument found =>
            rw [document] at found
            cases found

/-! ## Configurations -/

/-- A masked configuration has a value that is `[redacted]` if and only if a value of the
configuration is masked as a whole. -/
theorem hasRedaction_redact (x : Codec) (left : Nat) (v : Value) :
    hasRedaction (redact x left v) = true ↔ Whole x left v := by
  induction left generalizing v with
  | zero =>
    rw [redact, hasRedaction_str]
    exact iff_of_true rfl (.deep v)
  | succ left ih =>
    cases v with
    | list xs =>
      rw [redact, hasRedaction_list]
      constructor
      · rintro ⟨_, mem, h⟩
        obtain ⟨v, inside, rfl⟩ := List.mem_map.mp mem
        exact .item inside ((ih v).mp h)
      · intro h
        cases h with
        | item mem h => exact ⟨_, List.mem_map_of_mem mem, (ih _).mpr h⟩
    | dict fields =>
      rw [redact, hasRedaction_dict]
      constructor
      · rintro ⟨_, mem, h⟩
        obtain ⟨f, inside, rfl⟩ := List.mem_map.mp mem
        obtain ⟨inside, kept⟩ := List.mem_filter.mp inside
        rw [decide_eq_true_eq] at kept
        dsimp only at h
        split_ifs at h with environment credential
        · exact .reference inside environment ((hasRedaction_references environment).mp h)
        · exact .secret inside kept environment credential
        · exact .field inside kept environment ((ih f.2).mp h)
      · intro h
        cases h with
        | @secret _ _ f mem kept other h =>
          refine ⟨_, List.mem_map_of_mem (List.mem_filter.mpr ⟨mem, decide_eq_true kept⟩), ?_⟩
          rw [if_neg other, if_pos h, hasRedaction_str]
        | @reference _ _ f mem environment h =>
          have kept : f.1 ∉ droppedKeys := by
            revert environment
            simp only [environmentKeys, droppedKeys, List.mem_cons, List.not_mem_nil, or_false]
            rintro (same | same) <;> rw [same] <;> decide
          refine ⟨_, List.mem_map_of_mem (List.mem_filter.mpr ⟨mem, decide_eq_true kept⟩), ?_⟩
          rw [if_pos environment, hasRedaction_references environment]
          exact h
        | @field _ _ f mem kept other h =>
          refine ⟨_, List.mem_map_of_mem (List.mem_filter.mpr ⟨mem, decide_eq_true kept⟩), ?_⟩
          rw [if_neg other]
          split_ifs
          · rw [hasRedaction_str]
          · exact (ih f.2).mpr h
    | str value =>
      rw [redact, hasRedaction_str, redactText_eq_iff]
      constructor
      · rintro (rfl | h)
        · exact .masked
        · exact .text h
      · intro h
        cases h with
        | masked => exact Or.inl rfl
        | text h => exact Or.inr h
    | _ => exact iff_of_false (by simp [redact, hasRedaction]) fun h => by cases h

mutual

/-- A configuration without the keys that are never shown. -/
def dropPaths : Value → Value
  | .list xs => .list (dropPathsList xs)
  | .dict fields => .dict (dropPathsFields fields)
  | v => v

def dropPathsList : List Value → List Value
  | [] => []
  | v :: xs => dropPaths v :: dropPathsList xs

def dropPathsFields : List (String × Value) → List (String × Value)
  | [] => []
  | (key, v) :: fields =>
    if key ∈ droppedKeys then dropPathsFields fields
    else (key, dropPaths v) :: dropPathsFields fields

end

/-- `_redact` replaces or removes something, these keys aside. -/
def Masked (x : Codec) (config : Value) : Prop :=
  dropPaths (redact x maxDepth config) ≠ dropPaths config

instance (x : Codec) (config : Value) : Decidable (Masked x config) := by
  unfold Masked
  infer_instance

theorem require_error {holds : Bool} {detail : String} {e : HTTPException} :
    require holds detail = .error e ↔ holds = false ∧ e = ⟨422, detail⟩ := by
  cases holds <;> simp [require, eq_comm]

/-- Past the checks of the shape, only a masked value is refused with this message. -/
theorem checkPlan_redacted_iff {size : Value → Option Nat} {mode : Mode} {config : Value}
    (shape : checkShape size config = .ok ()) :
    checkPlan size mode config = .error ⟨422, redactedCredentials⟩ ↔
      hasRedaction config = true := by
  have context : checkContext mode config ≠ .error ⟨422, redactedCredentials⟩ := by
    intro refused
    have detail := (HTTPException.mk.inj (require_error.mp refused).2).2
    revert detail
    decide
  have steps : checkPlan size mode config =
      (require (!hasRedaction config) redactedCredentials >>= fun _ =>
        checkContext mode config) := by
    rw [checkPlan, shape]
    rfl
  rw [steps, bind_error, require_error]
  simp [context]

/-- A configuration of which something is masked is refused once it is masked, if and only if a
value of it is masked as a whole: the check finds a masked value, and a plan that gets to the
check is refused with its message. -/
theorem masked_refused_iff (x : Codec) (config : Value) :
    ((Masked x config → hasRedaction (redact x maxDepth config) = true) ↔
      ¬Masked x config ∨ Whole x maxDepth config) ∧
    ∀ size mode, checkShape size (redact x maxDepth config) = .ok () →
      ((Masked x config → checkPlan size mode (redact x maxDepth config) =
          .error ⟨422, redactedCredentials⟩) ↔
        ¬Masked x config ∨ Whole x maxDepth config) := by
  refine ⟨?_, fun size mode shape => ?_⟩
  · rw [hasRedaction_redact, ← imp_iff_not_or]
  · rw [checkPlan_redacted_iff shape, hasRedaction_redact, ← imp_iff_not_or]

/-! ## Credentials in a header and in a form -/

/-- The texts below are neither JSON nor URLs, and only the brackets of `[redacted]` are quoted. -/
def formCodec : Codec where
  loads _ := .valueError
  dumps _ := "null"
  urlsplit _ := none
  urlunsplit _ := ""
  unquote := id
  quotePlus text := if text = "[redacted]" then "%5Bredacted%5D" else text
  lower text := String.ofList (text.toList.map Char.toLower)
  loads_redacted := rfl
  dumps_ne _ := by decide
  lower_redacted := by decide
  colon_urlunsplit _ split := absurd split (Option.some_ne_none _).symm

/-- A configuration whose one journey has this field. -/
def withField (key value : String) : Value :=
  .dict [("service", .dict []), ("deployment", .dict []),
    ("traffic", .dict [("journeys", .list [.dict [(key, .str value)]])]),
    ("runtime", .dict [("kubernetesContext", .str "ctx"), ("namespace", .str "ns")])]

theorem redact_authorization :
    redact formCodec maxDepth (withField "authorization" "Bearer private") =
      withField "authorization" "[redacted]" := by
  decide +kernel

theorem masked_authorization : Masked formCodec (withField "authorization" "Bearer private") := by
  rw [Masked, redact_authorization]
  decide

/-- The value of a secret key is masked as a whole. -/
theorem masked_refused_iff_authorization :
    checkPlan (fun _ => some 162) .kubernetes
        (redact formCodec maxDepth (withField "authorization" "Bearer private")) =
      .error ⟨422, redactedCredentials⟩ := by
  obtain ⟨found, planned⟩ :=
    masked_refused_iff formCodec (withField "authorization" "Bearer private")
  have masked := masked_authorization
  have shape : checkShape (fun _ => some 162)
      (redact formCodec maxDepth (withField "authorization" "Bearer private")) = .ok () := by
    rw [redact_authorization]
    decide
  refine (planned _ .kubernetes shape).mpr (found.mp fun _ => ?_) masked
  rw [redact_authorization]
  decide

theorem redact_body :
    redact formCodec maxDepth (withField "body" "client_secret=private") =
      withField "body" "client_secret=%5Bredacted%5D" := by
  decide +kernel

theorem encoded_placeholder_planned :
    Masked formCodec (withField "body" "client_secret=private") ∧
      ¬hasRedaction (redact formCodec maxDepth (withField "body" "client_secret=private")) = true ∧
      checkPlan (fun _ => some 162) .kubernetes
        (redact formCodec maxDepth (withField "body" "client_secret=private")) = .ok () := by
  rw [Masked, redact_body]
  decide

end Relayna.Studio.Redaction
