import Relayna.Foundation.Python

/-!
# Observability profiles

A profile is an endpoint with its tenant and its credential, which is stored encrypted. Services
are bound to profiles by their ids. `saved` is what `save` makes of a payload that has been
validated, of the profile it replaces and of the other profiles; `resolve` is what a request to
the provider is made of.

`str.casefold`, the outbound policy, Fernet and `json` are parameters.
-/
namespace Relayna.Studio.Profiles

inductive Provider
  | loki | prometheus | tempo
  deriving DecidableEq, Repr

inductive AuthMode
  | none | bearer | basic
  deriving DecidableEq, Repr

structure Credentials where
  token : Option String := none
  username : Option String := none
  password : Option String := none
  deriving DecidableEq, Repr

/-- `_ProfileInput`, after its validation. -/
structure ProfileInput where
  name : String
  environment : String
  provider : Provider
  baseUrl : String
  tenantId : Option String
  authMode : AuthMode
  credentials : Credentials
  revision : Option Nat
  deriving DecidableEq, Repr

structure Profile where
  id : String
  name : String
  environment : String
  provider : Provider
  baseUrl : String
  tenantId : Option String
  authMode : AuthMode
  revision : Nat
  credentialCipher : Option String
  deriving DecidableEq, Repr

structure HTTPException where
  status : Nat
  detail : String
  deriving DecidableEq, Repr

/-- What a token is encrypted with. A cipher text depends on the moment it is made. -/
structure Fernet where
  encrypt : Nat → String → String
  decrypt : String → Option String
  decrypt_encrypt : ∀ moment text, decrypt (encrypt moment text) = some text

structure Library where
  casefold : String → String
  allowed : String → Bool
  fernet : Fernet
  dumps : Credentials → String
  loads : String → Option Credentials
  loads_dumps : ∀ c, loads (dumps c) = some c

/-! ## Credentials -/

def Credentials.entries (c : Credentials) : List (String × String) :=
  [("token", c.token), ("username", c.username), ("password", c.password)].filterMap fun entry =>
    entry.2.map fun value => (entry.1, value)

def AuthMode.required : AuthMode → List String
  | .none => []
  | .bearer => ["token"]
  | .basic => ["username", "password"]

def validValue (value : String) : Bool :=
  value ≠ "" ∧ value.length ≤ 4096 ∧ value.toList.all fun c => 32 ≤ c.toNat

/-- The checks of the credentials that a payload carries. -/
def ProfileInput.checkCredentials (payload : ProfileInput) : Except HTTPException Unit :=
  let entries := payload.credentials.entries
  if entries ≠ [] ∧ (entries.map Prod.fst ≠ payload.authMode.required ∨
      ¬ entries.all fun entry => validValue entry.2) then
    .error ⟨422, "Supply complete, valid credentials for the selected authentication mode."⟩
  else if payload.authMode = .bearer ∧
      (payload.credentials.token.getD "").toList.any fun c => 126 < c.toNat then
    .error ⟨422, "Bearer tokens must contain printable ASCII characters."⟩
  else if payload.authMode = .basic ∧ ':' ∈ (payload.credentials.username.getD "").toList then
    .error ⟨422, "Basic authentication usernames cannot contain a colon."⟩
  else .ok ()

variable (x : Library)

/-- The cipher text of the new profile: of the payload's credentials, or of the profile before it,
if its endpoint, tenant and mode are the same. -/
def ProfileInput.cipher (payload : ProfileInput) (previous : Option Profile) (moment : Nat) :
    Option String :=
  if payload.authMode = .none then none
  else if payload.credentials.entries ≠ [] then
    some (x.fernet.encrypt moment (x.dumps payload.credentials))
  else previous.bind fun p =>
    if p.authMode = payload.authMode ∧ p.baseUrl = payload.baseUrl ∧
        p.tenantId = payload.tenantId then
      p.credentialCipher
    else none

/-! ## `save` -/

/-- What is compared with the profile that is replaced. -/
def ProfileInput.checkPrevious (payload : ProfileInput) (previous : Profile) :
    Except HTTPException Unit :=
  if payload.revision ≠ some previous.revision then
    .error ⟨409, "This profile changed. Reload it before saving."⟩
  else if payload.provider ≠ previous.provider ∨ payload.environment ≠ previous.environment then
    .error ⟨422, "Profile provider and environment cannot change. Create another profile instead."⟩
  else .ok ()

/-- Another profile has the name. -/
def ProfileInput.nameTaken (payload : ProfileInput) (profileId : Option String)
    (others : List Profile) : Bool :=
  others.any fun p => some p.id ≠ profileId ∧ p.environment = payload.environment ∧
    p.provider = payload.provider ∧ x.casefold p.name = x.casefold payload.name

def ProfileInput.profile (payload : ProfileInput) (id : String) (previous : Option Profile)
    (cipher : Option String) : Profile where
  id := id
  name := payload.name
  environment := payload.environment
  provider := payload.provider
  baseUrl := payload.baseUrl
  tenantId := payload.tenantId
  authMode := payload.authMode
  revision := (previous.elim 0 Profile.revision) + 1
  credentialCipher := cipher

/-- The profile that `save` writes, with the id that `uuid4` has drawn if it is a new one. -/
def saved (payload : ProfileInput) (profileId : Option String) (previous : Option Profile)
    (others : List Profile) (uuid : String) (moment : Nat) : Except HTTPException Profile :=
  if payload.nameTaken x profileId others then
    .error ⟨409, "A profile with this name already exists for this environment and provider."⟩
  else do
    payload.checkCredentials
    let cipher := payload.cipher x previous moment
    if payload.authMode ≠ .none ∧ (cipher.getD "") = "" then
      throw ⟨422, "Supply new credentials when changing the endpoint, tenant, or authentication " ++
        "mode."⟩
    else return payload.profile (profileId.getD uuid) previous cipher

/-! ## Bindings and requests -/

/-- A provider's config of a service. `PrometheusMetricsConfig` has no tenant. -/
structure Config where
  profileId : Option String
  baseUrl : String
  tenantId : Option String
  deriving DecidableEq, Repr

def checkBinding (profile : Profile) (environment : String) (provider : Provider) : Bool :=
  profile.provider = provider ∧ profile.environment = environment

def effective (provider : Provider) (config : Config) (profile : Profile) : Config :=
  { config with
    baseUrl := profile.baseUrl
    tenantId := if provider = .prometheus then config.tenantId else profile.tenantId }

/-- The value of the header `X-Scope-OrgID`. -/
def Config.tenant (provider : Provider) (config : Config) : Option String :=
  if provider = .prometheus then none else config.tenantId.filter (· ≠ "")

/-- The value of the header `Authorization`, before it is encoded. -/
inductive Authorization
  | bearer (token : String)
  | basic (username password : String)
  deriving DecidableEq, Repr

/-- A request to a provider or to Chamber. -/
structure Request where
  baseUrl : String
  tenant : Option String
  authorization : Option Authorization
  deriving DecidableEq, Repr

def undecryptable : HTTPException :=
  ⟨503, "The profile credential cannot be decrypted. Restore the settings key or replace the " ++
    "credential."⟩

/-- `_credentials`. -/
def Profile.credentials (p : Profile) : Except HTTPException Credentials :=
  if p.authMode = .none then .ok {}
  else match (p.credentialCipher.bind x.fernet.decrypt).bind x.loads with
    | some c => .ok c
    | none => .error undecryptable

/-- The header that is made of the credentials. -/
def authorization (mode : AuthMode) (c : Credentials) :
    Except HTTPException (Option Authorization) :=
  match mode, c.token, c.username, c.password with
  | .none, _, _, _ => .ok none
  | .bearer, some token, _, _ => .ok (some (.bearer token))
  | .basic, _, some username, some password => .ok (some (.basic username password))
  | _, _, _, _ => .error ⟨500, "KeyError"⟩

/-- The request that a config and the profile it is bound to give. -/
def resolve (provider : Provider) (config : Config) (environment : String)
    (find : String → Option Profile) : Except HTTPException Request :=
  match config.profileId with
  | none => .ok ⟨config.baseUrl, config.tenant provider, none⟩
  | some id =>
    match find id with
    | none => .error ⟨503, "The service's observability profile is missing."⟩
    | some profile =>
      if profile.environment ≠ environment ∨ profile.provider ≠ provider then
        .error ⟨503, "The service's observability profile has an incompatible scope."⟩
      else if ¬ x.allowed profile.baseUrl then .error ⟨503, "OutboundUrlPolicyError"⟩
      else do
        let config := effective provider config profile
        let secret ← profile.credentials x
        let header ← authorization profile.authMode secret
        return ⟨config.baseUrl, config.tenant provider, header⟩

/-! ## A library for runs on fixed inputs -/

namespace Plain

/-- Every character after a `c`, and an `e` at the end. -/
def field : Option String → List Char
  | none => ['n']
  | some s => 's' :: (s.toList.flatMap fun a => ['c', a]) ++ ['e']

def chars : List Char → List Char × List Char
  | 'c' :: a :: rest => ((a :: (chars rest).1), (chars rest).2)
  | rest => ([], rest)

def readField : List Char → Option (Option String × List Char)
  | 'n' :: rest => some (none, rest)
  | 's' :: rest =>
    match chars rest with
    | (s, 'e' :: rest) => some (some (String.ofList s), rest)
    | _ => none
  | _ => none

theorem chars_flatMap (s rest : List Char) :
    chars ((s.flatMap fun a => ['c', a]) ++ 'e' :: rest) = (s, 'e' :: rest) := by
  induction s with
  | nil => rfl
  | cons a s ih =>
    change ((a :: (chars ((s.flatMap fun a => ['c', a]) ++ 'e' :: rest)).1),
      (chars ((s.flatMap fun a => ['c', a]) ++ 'e' :: rest)).2) = _
    rw [ih]

theorem readField_field (value : Option String) (rest : List Char) :
    readField (field value ++ rest) = some (value, rest) := by
  cases value with
  | none => rfl
  | some s =>
    have text : field (some s) ++ rest =
        's' :: ((s.toList.flatMap fun a => ['c', a]) ++ 'e' :: rest) := by
      simp [field]
    rw [text]
    simp only [readField, chars_flatMap, String.ofList_toList]

def dumps (c : Credentials) : String :=
  String.ofList (field c.token ++ field c.username ++ field c.password)

def loads (text : String) : Option Credentials := do
  let (token, rest) ← readField text.toList
  let (username, rest) ← readField rest
  let (password, _) ← readField rest
  return { token, username, password }

theorem loads_dumps (c : Credentials) : loads (dumps c) = some c := by
  obtain ⟨token, username, password⟩ := c
  have last := readField_field password []
  rw [List.append_nil] at last
  simp [loads, dumps, readField_field, last]

end Plain

/-- Nothing is encrypted. -/
def plainFernet : Fernet := ⟨fun _ text => text, some, fun _ _ => rfl⟩

/-- Every endpoint is allowed; texts in lower case stay as they are. -/
def plainLibrary : Library where
  casefold s := s
  allowed _ := true
  fernet := plainFernet
  dumps := Plain.dumps
  loads := Plain.loads
  loads_dumps := Plain.loads_dumps

end Relayna.Studio.Profiles
