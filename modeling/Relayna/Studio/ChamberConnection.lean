import Relayna.Foundation.Failing
import Relayna.Studio.ObservabilityProfiles

/-!
# The connection to Chamber

The connection is the one of the deployment or one that an operator has entered, with its token
encrypted beside its origin. Whoever has read a connection may keep it and make a request with it
later: `response` takes the URL and the token from the same connection.

`_origin`, the outbound policy and `sha256` are parameters.
-/
namespace Relayna.Studio.Chamber

open Python Profiles

inductive Source
  | ui | deployment | disabled
  deriving DecidableEq, Repr

structure Connection where
  source : Source
  url : String
  tokenCipher : Option String
  id : String
  deriving DecidableEq, Repr

/-- `_ConnectionUpdate`. -/
structure ConnectionUpdate where
  mode : Source
  url : String
  token : Option String
  deriving DecidableEq, Repr

structure Deployment where
  url : String
  token : String
  deriving DecidableEq, Repr

structure Library where
  origin : String → Except HTTPException String
  allowed : String → Bool
  digest : String → String
  fernet : Fernet

variable (y : Library) (d : Deployment)

def deploymentConnection : Connection := ⟨.deployment, d.url, none, y.digest d.url⟩

/-- The connection that is in force, with the row that is stored. -/
def current (row : Option Connection) : Connection :=
  match row with
  | some c => if c.source ≠ .deployment then c else deploymentConnection y d
  | none => deploymentConnection y d

def token (c : Connection) : Except HTTPException String :=
  match c.source with
  | .disabled => .ok ""
  | .deployment =>
    if c.url ≠ d.url then .error ⟨409, "This run uses a previous deployment connection. " ++
      "Restore that endpoint to inspect or cancel it."⟩
    else .ok d.token
  | .ui =>
    match c.tokenCipher.bind y.fernet.decrypt with
    | some token => .ok token
    | none => .error ⟨503, "The stored Chamber credential cannot be decrypted. Restore its " ++
      "encryption key or save a new connection."⟩

/-- The token of an update; `""` if it is omitted. -/
def ConnectionUpdate.secret (payload : ConnectionUpdate) : String := strip (payload.token.getD "")

def validToken (token : String) : Bool :=
  token ≠ "" ∧ token.length ≤ 4096 ∧ '\r' ∉ token.toList ∧ '\n' ∉ token.toList

/-- The token of the connection that an update asks for. -/
def candidateToken (row : Option Connection) (payload : ConnectionUpdate) (url : String) :
    Except HTTPException String :=
  if payload.secret ≠ "" then .ok payload.secret
  else if (current y d row).url ≠ url then
    .error ⟨422, "Supply a new credential when changing the Chamber endpoint."⟩
  else token y d (current y d row)

/-- The connection that an update asks for. It is stored by `update` and tried by a test. -/
def candidate (row : Option Connection) (payload : ConnectionUpdate) (uuid : String)
    (moment : Nat) : Except HTTPException Connection :=
  match payload.mode with
  | .disabled => .ok ⟨.disabled, "", none, uuid⟩
  | .deployment => .ok (deploymentConnection y d)
  | .ui => do
    let url ← y.origin payload.url
    if ¬ y.allowed url then
      throw ⟨422, "This Chamber host is outside the backend outbound allowlist. Add the " ++
        "internal host or network in deployment settings."⟩
    else
      let token ← candidateToken y d row payload url
      if ¬ validToken token then
        throw ⟨422, "Supply a valid Chamber operator or integration token."⟩
      else return ⟨.ui, url, some (y.fernet.encrypt moment token), uuid⟩

/-- The request that is made with a connection. -/
def response (c : Connection) : Except HTTPException Request :=
  if c.url = "" then
    .error ⟨503, "Load testing is not configured. Ask an administrator to connect Ampule Chamber."⟩
  else do
    let credential ← token y d c
    return ⟨c.url, none, some (.bearer credential)⟩

/-! ## Tokens and the URLs they were entered with -/

/-- An URL and a token that were entered together. -/
abbrev Pair := String × String

/-- What a connection stores was entered with its URL. -/
def Connection.Stored (c : Connection) (pairs : List Pair) : Prop :=
  match c.source with
  | .ui => ∃ cipher token, c.tokenCipher = some cipher ∧ y.fernet.decrypt cipher = some token ∧
      (c.url, token) ∈ pairs
  | .deployment => True
  | .disabled => c.url = ""

variable {y} {d}

theorem Connection.Stored.mono {c : Connection} {pairs more : List Pair} (h : c.Stored y pairs)
    (sub : pairs ⊆ more) : c.Stored y more := by
  unfold Connection.Stored at h ⊢
  split at h
  · obtain ⟨cipher, token, stored, decrypts, mem⟩ := h
    exact ⟨cipher, token, stored, decrypts, sub mem⟩
  · trivial
  · exact h

theorem stored_deployment (pairs : List Pair) : (deploymentConnection y d).Stored y pairs := trivial

theorem stored_current {row : Option Connection} {pairs : List Pair}
    (h : ∀ c ∈ row, c.Stored y pairs) : (current y d row).Stored y pairs := by
  cases row with
  | none => exact stored_deployment pairs
  | some c =>
    simp only [current]
    split_ifs
    · exact h c rfl
    · exact stored_deployment pairs

/-- The token of a connection was entered with its URL, unless neither is there. -/
theorem token_entered {c : Connection} {pairs : List Pair} {t : String} (h : c.Stored y pairs)
    (deployed : (d.url, d.token) ∈ pairs) (ht : token y d c = .ok t) (there : c.url ≠ "" ∨ t ≠ "") :
    (c.url, t) ∈ pairs := by
  unfold token at ht
  unfold Connection.Stored at h
  cases hs : c.source with
  | disabled =>
    simp only [hs] at h ht
    exact absurd (Except.ok.inj ht).symm (there.resolve_left (not_not.mpr h))
  | deployment =>
    simp only [hs] at ht
    split_ifs at ht with other
    rw [not_not.mp other, ← Except.ok.inj ht]
    exact deployed
  | ui =>
    simp only [hs] at h
    obtain ⟨cipher, entered, stored, decrypts, mem⟩ := h
    simp only [hs, stored, Option.bind_some, decrypts] at ht
    rwa [← Except.ok.inj ht]

/-- What an update that is accepted enters. -/
def ConnectionUpdate.enters (payload : ConnectionUpdate) (c : Connection) : List Pair :=
  if payload.mode = .ui ∧ payload.secret ≠ "" then [(c.url, payload.secret)] else []

/-- An update that is accepted has a token of its own or the one that is in force, of the same
URL. -/
theorem candidate_ui {row : Option Connection} {payload : ConnectionUpdate} {uuid : String}
    {moment : Nat} {c : Connection} (h : candidate y d row payload uuid moment = .ok c)
    (ui : payload.mode = .ui) :
    c.source = .ui ∧ ∃ t, t ≠ "" ∧ c.tokenCipher = some (y.fernet.encrypt moment t) ∧
      candidateToken y d row payload c.url = .ok t := by
  simp only [candidate, ui] at h
  obtain ⟨url, -, h⟩ := Failing.bind_ok.mp h
  split_ifs at h with allowed
  obtain ⟨t, ht, h⟩ := Failing.bind_ok.mp h
  split_ifs at h with valid
  obtain rfl := Except.ok.inj h
  have nonempty : t ≠ "" := by
    rintro rfl
    exact absurd valid (by simp [validToken])
  exact ⟨rfl, t, nonempty, rfl, ht⟩

/-- What an update asks for was entered before, or is entered with it. -/
theorem candidate_stored {row : Option Connection} {payload : ConnectionUpdate} {uuid : String}
    {moment : Nat} {c : Connection} {pairs more : List Pair}
    (h : candidate y d row payload uuid moment = .ok c) (stored : ∀ r ∈ row, r.Stored y pairs)
    (deployed : (d.url, d.token) ∈ pairs) (sub : pairs ⊆ more) (enters : payload.enters c ⊆ more) :
    c.Stored y more := by
  cases mode : payload.mode with
  | disabled =>
    simp only [candidate, mode] at h
    obtain rfl := Except.ok.inj h
    rfl
  | deployment =>
    simp only [candidate, mode] at h
    obtain rfl := Except.ok.inj h
    trivial
  | ui =>
    obtain ⟨source, t, nonempty, cipher, ht⟩ := candidate_ui h mode
    unfold Connection.Stored
    rw [source]
    refine ⟨_, t, cipher, y.fernet.decrypt_encrypt moment t, ?_⟩
    unfold candidateToken at ht
    split_ifs at ht with own other
    · refine enters ?_
      rw [ConnectionUpdate.enters, if_pos ⟨mode, own⟩, ← Except.ok.inj ht]
      exact List.mem_singleton_self _
    · have url := not_not.mp other
      rw [← url]
      exact sub (token_entered (stored_current stored) deployed ht (Or.inr nonempty))

/-- The request that is made with a connection takes a token to the URL it was entered with. -/
theorem response_entered {c : Connection} {pairs : List Pair} {r : Request} (h : c.Stored y pairs)
    (deployed : (d.url, d.token) ∈ pairs) (hr : response y d c = .ok r) :
    ∃ t, r.authorization = some (.bearer t) ∧ (r.baseUrl, t) ∈ pairs := by
  unfold response at hr
  split_ifs at hr with url
  obtain ⟨t, ht, hr⟩ := Failing.bind_ok.mp hr
  obtain rfl := Except.ok.inj hr
  exact ⟨t, rfl, token_entered h deployed ht (Or.inl url)⟩

end Relayna.Studio.Chamber
