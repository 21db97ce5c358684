import Relayna.Foundation.Documents
import Relayna.Studio.ObservabilityProfiles

/-!
# Masked configurations

A configuration is shown with its credentials masked. They are looked for in all values, and in
the JSON documents, URLs and forms that its texts hold. A plan with a masked value is refused.

`_redact` goes at most 32 levels deep. Its recursion is over the levels that are left.
-/
namespace Relayna.Studio.Redaction

open Python Profiles

def maxDepth : Nat := 32
@[irreducible] def maxString : Nat := 2 * 1024 * 1024

/-- `dumps` writes JSON, which `[redacted]` is not. What is split begins with a scheme, and is put
together again with a colon behind it. -/
structure Codec extends DocumentCodec where
  loads_redacted : loads "[redacted]" = .valueError
  dumps_ne : ∀ v, dumps v ≠ "[redacted]"
  lower_redacted : lower "[redacted]" = "[redacted]"
  colon_urlunsplit : ∀ {text parts}, toDocumentCodec.looksLikeHttp text = true →
    urlsplit (strip text) = some parts → ∀ netloc query fragment,
      ':' ∈ (urlunsplit { parts with netloc, query, fragment }).toList

variable (x : Codec)

def endings : List String :=
  ["authorization", "password", "apikey", "cookie", "token", "clientsecret"]

def secretKey (key : String) : Bool :=
  let normalized := (x.lower key).toList.filter fun c => c.isLower || c.isDigit
  normalized ∈ ["secretenv".toList, "secret".toList, "tokencipher".toList] ||
    endings.any (fun ending => ending.toList.isSuffixOf normalized) &&
      normalized ≠ "pathtoken".toList

/-- `re.fullmatch(r"[A-Za-z_][A-Za-z0-9_]*", text)`. -/
def isName (text : String) : Bool :=
  match text.toList with
  | c :: cs => (c.isAlpha || c = '_') && cs.all fun c => c.isAlphanum || c = '_'
  | [] => false

def environmentName : Value → Value
  | .str text => if isName text then .str text else .str "[redacted]"
  | _ => .str "[redacted]"

/-- Schema-declared environment names are references, never credential values. -/
def environmentReferences (key : String) (v : Value) : Value :=
  match v with
  | .list xs => if key = "secretEnv" then .list (xs.map environmentName) else .str "[redacted]"
  | .dict fields =>
    if key = "headersFromEnv" then .dict (fields.map fun f => (f.1, environmentName f.2))
    else .str "[redacted]"
  | _ => .str "[redacted]"

def environmentKeys : List String := ["secretEnv", "headersFromEnv"]
def droppedKeys : List String := ["config_path", "run_dir"]

def bounded (result : String) : String :=
  if result.length ≤ maxString then result else "[redacted]"

/-- The pairs of a form, with `mask` for what may be shown. -/
def maskedPairs (mask : String → String) (value : String) : List (String × String) :=
  (x.parseQsl value).map fun pair =>
    (pair.1, if secretKey x pair.1 then "[redacted]" else mask pair.2)

def redactForm (mask : String → String) (value : String) : String :=
  if '=' ∉ value.toList then value
  else if maskedPairs x mask value ≠ x.parseQsl value then
    bounded (x.urlencode (maskedPairs x mask value))
  else value

/-- The document in a text, `document` being what it is masked by. -/
def maskedDocument (document : Value → Value) (value : String) (v : Value) : String :=
  if document v ≠ v then x.dumps (document v) else value

def maskedUrl (pairs : String → String) (parts : SplitResult) : SplitResult :=
  { parts with
    netloc := hostOf parts.netloc, query := pairs parts.query, fragment := pairs parts.fragment }

/-- `parts.username is not None`, or the query or the fragment is masked. -/
def urlChanges (pairs : String → String) (parts : SplitResult) : Bool :=
  '@' ∈ parts.netloc.toList ∨ pairs parts.query ≠ parts.query ∨
    pairs parts.fragment ≠ parts.fragment

/-- What `json.loads` gives, unless the text does not look like JSON. -/
def documentIn (value : String) : Loads :=
  if looksLikeJson value then x.loads value else .valueError

def redactText (document : Value → Value) (pairs : String → String) (value : String) : String :=
  match documentIn x value with
  | .recursionError => "[redacted]"
  | .value v => bounded (maskedDocument x document value v)
  | .valueError =>
    if x.looksLikeHttp value then
      match x.urlsplit (strip value) with
      | none => "[redacted]"
      | some parts =>
        if urlChanges pairs parts then bounded (x.urlunsplit (maskedUrl pairs parts)) else value
    else pairs value

mutual

def redact : Nat → Value → Value
  | 0, _ => .str "[redacted]"
  | left + 1, .list xs => .list (xs.map (redact left))
  | left + 1, .dict fields =>
    .dict ((fields.filter fun f => f.1 ∉ droppedKeys).map fun f =>
      (f.1,
        if f.1 ∈ environmentKeys then environmentReferences f.1 f.2
        else if secretKey x f.1 then .str "[redacted]"
        else redact left f.2))
  | left + 1, .str value => .str (redactText x (redact left) (redactPairs left) value)
  | _ + 1, v => v

/-- The values of a form are one level deeper than the form is. -/
def redactPairs : Nat → String → String
  | 0, value => redactForm x (fun _ => "[redacted]") value
  | 1, value => redactForm x (fun _ => "[redacted]") value
  | left + 2, value => redactForm x (redactText x (redact left) (redactPairs left)) value

end

/-! ## Plans -/

mutual

def hasRedaction : Value → Bool
  | .dict fields => hasRedactionFields fields
  | .list xs => hasRedactionList xs
  | v => v = .str "[redacted]"

def hasRedactionList : List Value → Bool
  | [] => false
  | v :: xs => hasRedaction v || hasRedactionList xs

def hasRedactionFields : List (String × Value) → Bool
  | [] => false
  | (_, v) :: fields => hasRedaction v || hasRedactionFields fields

end

inductive Mode
  | «local» | kubernetes
  deriving DecidableEq, Repr

/-- `isinstance(config.get(name), dict)`. -/
def isObject (config : Value) (name : String) : Bool :=
  match config.get name with
  | some (.dict _) => true
  | _ => false

def areJourneys : Option Value → Bool
  | some (.list journeys) => 1 ≤ journeys.length && journeys.length ≤ 20 &&
      journeys.all fun journey => match journey with
        | .dict _ => true
        | _ => false
  | _ => false

def given (config : Value) (name : String) : Bool := (config.get name).any Value.truthy

def require (holds : Bool) (detail : String) : Except HTTPException Unit :=
  if holds then .ok () else .error ⟨422, detail⟩

/-- The checks of `_advanced_plan` before it looks for masked values. `size` is the length of the
JSON text of a configuration; there is none where a number is not finite. -/
def checkShape (size : Value → Option Nat) (config : Value) : Except HTTPException Unit := do
  require (size config).isSome "Assessment configuration must contain finite JSON values."
  require ((size config).all (· ≤ 1024 * 1024)) "Assessment configuration exceeds 1 MiB."
  ["service", "deployment", "traffic", "runtime"].forM fun name =>
    require (isObject config name) ("Assessment requires a " ++ name ++ " object.")
  let traffic := (config.get "traffic").getD .none
  require (areJourneys (traffic.get "journeys"))
    "Assessment traffic needs 1–20 journey objects."
  ["experiment", "agents"].forM fun area =>
    require ((config.get area).isNone || isObject config area)
      ("Assessment " ++ area ++ " must be an object.")
  require ((traffic.get "load").isNone || isObject traffic "load")
    "Assessment load must be an object."

def redactedCredentials : String :=
  "Replace redacted credentials with server environment references before planning."

def checkContext (mode : Mode) (config : Value) : Except HTTPException Unit :=
  let runtime := (config.get "runtime").getD .none
  require (mode ≠ .kubernetes || given runtime "kubernetesContext" &&
      (given runtime "namespace" || given runtime "namespaceBase"))
    "Review an explicit Kubernetes context and namespace before planning."

/-- What `_advanced_plan` checks before it calls Chamber. -/
def checkPlan (size : Value → Option Nat) (mode : Mode) (config : Value) :
    Except HTTPException Unit := do
  checkShape size config
  require (!hasRedaction config) redactedCredentials
  checkContext mode config

end Relayna.Studio.Redaction
