import Relayna.Studio.ChamberConnection
import Relayna.Studio.ControlPlaneRefs

/-!
# Where stored secrets are sent

Saves of observability profiles, updates of the connection to Chamber and requests, in any order.
A request to a provider is made of one row of a profile; a request to Chamber of one connection,
which may be an old one that a load test keeps. `Sent.Allowed` says that the secret of a request
was entered with the endpoint it goes to.
-/
namespace Relayna.Studio.Secrets

open Profiles Chamber ControlPlane Transition

/-- A request, with its provider if it is not made to Chamber. -/
structure Sent where
  provider : Option Provider
  request : Request
  deriving DecidableEq

structure State where
  control : ControlPlane.State := {}
  /-- The payloads of the saves that are committed. -/
  saves : List ProfileInput := []
  /-- The row of the connection to Chamber. -/
  row : Option Connection := none
  /-- The connections that have been read or made; some of them are kept by load tests. -/
  known : List Connection := []
  /-- The connections that calls of `update` are about to store. -/
  updates : List Connection := []
  /-- What updates that were accepted have entered. -/
  entered : List Pair := []
  deployment : Deployment
  deployments : List Deployment
  requests : List Sent := []

inductive Step where
  | profiles (l : ControlPlane.Step)
  /-- A request to the provider of a service's config. -/
  | resolve (provider : Provider) (config : Config) (environment : String)
  | current
  /-- A test of the connection, which is not stored. -/
  | candidate (payload : ConnectionUpdate) (uuid : String) (moment : Nat)
  | update (payload : ConnectionUpdate) (uuid : String) (moment : Nat)
  | write (n : Nat)
  /-- A request with a connection that is known. -/
  | send (n : Nat)
  /-- Studio is started again with other settings. -/
  | deploy (d : Deployment)

def start (d : Deployment) : State := { deployment := d, deployments := [d] }

/-- The payload of the save that the step commits. -/
def committed (s : ControlPlane.State) : ControlPlane.Step → List ProfileInput
  | .commit n =>
    match s.calls[n]? with
    | some (.commit (.profile payload _ _)) => [payload]
    | _ => []
  | _ => []

variable (x : Profiles.Library) (y : Chamber.Library)

def State.sending (s : State) (provider : Option Provider) :
    Except HTTPException Request → State
  | .ok request => { s with requests := s.requests ++ [⟨provider, request⟩] }
  | .error _ => s

def next (s : State) : Step → Option State
  | .profiles l =>
    (ControlPlane.next x s.control l).map fun control =>
      { s with control, saves := s.saves ++ committed s.control l }
  | .resolve provider config environment =>
    some (s.sending (some provider) (resolve x provider config environment s.control.db.profile))
  | .current => some { s with known := s.known ++ [Chamber.current y s.deployment s.row] }
  | .candidate payload uuid moment =>
    match candidate y s.deployment s.row payload uuid moment with
    | .ok c => some { s with known := s.known ++ [c], entered := s.entered ++ payload.enters c }
    | .error _ => some s
  | .update payload uuid moment =>
    match candidate y s.deployment s.row payload uuid moment with
    | .ok c =>
      some { s with updates := s.updates ++ [c], entered := s.entered ++ payload.enters c }
    | .error _ => some s
  | .write n => s.updates[n]?.map fun c => { s with row := some c }
  | .send n => s.known[n]?.map fun c => s.sending none (response y s.deployment c)
  | .deploy d => some { s with deployment := d, deployments := s.deployments ++ [d] }

def machine : Machine State Step := ⟨next x y⟩

/-- What `uuid4` draws is no profile's id. -/
def FreshIds (s : State) : Step → Prop
  | .profiles l => ControlPlane.FreshIds s.control l
  | _ => True

/-- What operators and deployments have entered for Chamber. -/
def State.pairs (s : State) : List Pair :=
  s.entered ++ s.deployments.map fun d => (d.url, d.token)

/-- The secret of the request was entered with the endpoint that it goes to, for Loki and Tempo
also with the tenant, and for a profile with the authentication mode. -/
def Sent.Allowed (s : State) (sent : Sent) : Prop :=
  ∀ header ∈ sent.request.authorization,
    match sent.provider with
    | none => ∃ t, header = .bearer t ∧ (sent.request.baseUrl, t) ∈ s.pairs
    | some provider => ∃ payload ∈ s.saves, sent.request.baseUrl = payload.baseUrl ∧
        authorization payload.authMode payload.credentials = .ok (some header) ∧
        (provider ≠ .prometheus → sent.request.tenant = payload.tenantId.filter (· ≠ ""))

/-- The secret of a stored profile was entered with its endpoint, tenant and mode. -/
def Entered (saves : List ProfileInput) (p : Profile) : Prop :=
  p.authMode ≠ .none → ∃ payload ∈ saves, p.authMode = payload.authMode ∧
    p.baseUrl = payload.baseUrl ∧ p.tenantId = payload.tenantId ∧
    ∃ moment, p.credentialCipher = some (x.fernet.encrypt moment (x.dumps payload.credentials))

structure Inv (s : State) : Prop where
  control : ControlPlane.Inv x s.control
  profiles : ∀ p ∈ s.control.db.profiles, Entered x s.saves p
  row : ∀ c ∈ s.row, c.Stored y s.pairs
  known : ∀ c ∈ s.known, c.Stored y s.pairs
  updates : ∀ c ∈ s.updates, c.Stored y s.pairs
  deployed : (s.deployment.url, s.deployment.token) ∈ s.pairs
  requests : ∀ sent ∈ s.requests, sent.Allowed s

variable {x y}

/-! ## Profiles -/

theorem Entered.mono {saves more : List ProfileInput} {p : Profile} (h : Entered x saves p)
    (sub : saves ⊆ more) : Entered x more p := by
  intro mode
  obtain ⟨payload, mem, rest⟩ := h mode
  exact ⟨payload, sub mem, rest⟩

/-- What a save writes was entered with it, or is kept with its endpoint. -/
theorem entered_of_writes {db : Db} {saves : List ProfileInput} {payload : ProfileInput}
    {id : Option String} {p : Profile} (writes : db.Writes x payload id p)
    (stored : ∀ q ∈ db.profiles, Entered x saves q) : Entered x (saves ++ [payload]) p := by
  intro mode
  by_cases given : payload.credentials.entries = []
  · obtain ⟨q, found, ⟨auth, url, tenant⟩, cipher⟩ := writes.kept mode given
    have before := stored q (Keyed.mem_of_get? found) (auth ▸ mode)
    obtain ⟨origin, mem, auth', url', tenant', moment, cipher'⟩ := before
    exact ⟨origin, List.mem_append_left _ mem, auth.trans auth', url.trans url',
      tenant.trans tenant', moment, cipher.trans cipher'⟩
  · obtain ⟨moment, cipher⟩ := writes.entered mode given
    obtain ⟨auth, url, tenant⟩ := writes.endpoint
    exact ⟨payload, List.mem_append_right _ (List.mem_singleton_self _), auth, url, tenant, moment,
      cipher⟩

theorem profiles_entered {s t : ControlPlane.State} {l : ControlPlane.Step}
    {saves : List ProfileInput} (h : ControlPlane.Inv x s) (hl : ControlPlane.next x s l = some t)
    (stored : ∀ p ∈ s.db.profiles, Entered x saves p) :
    ∀ p ∈ t.db.profiles, Entered x (saves ++ committed s l) p := by
  have old : ∀ p ∈ s.db.profiles, Entered x (saves ++ committed s l) p := fun p mem =>
    (stored p mem).mono (List.subset_append_left _ _)
  cases l with
  | commit n =>
    obtain ⟨stage, hn, step⟩ := Option.bind_eq_some_iff.mp hl
    split at step
    · rename_i effect
      obtain rfl := Option.some.inj step
      have ok : effect.Ok x s.db := h.stages n _ hn
      cases effect with
      | profile payload id p =>
        intro q mem
        obtain rfl | mem := Keyed.mem_of_mem_put mem
        · simp only [committed, hn]
          exact entered_of_writes ok stored
        · exact old q mem
      | removeProfile id revision => exact fun p mem => old p (List.mem_filter.mp mem).1
      | _ => exact old
    · cases step
  | call operation =>
    obtain rfl := Option.some.inj hl
    exact old
  | await n uuid moment =>
    obtain ⟨stage, -, step⟩ := Option.bind_eq_some_iff.mp hl
    obtain ⟨stage', -, rfl⟩ := Option.map_eq_some_iff.mp step
    exact old
  | fail n error =>
    obtain ⟨stage, -, rfl⟩ := Option.map_eq_some_iff.mp hl
    exact old

/-- A request that is made of a profile takes its secret to the endpoint it was entered with. -/
theorem resolve_entered {provider : Provider} {config : Config} {environment : String} {db : Db}
    {saves : List ProfileInput} {r : Request}
    (stored : ∀ p ∈ db.profiles, Entered x saves p)
    (h : resolve x provider config environment db.profile = .ok r) :
    ∀ header ∈ r.authorization, ∃ payload ∈ saves, r.baseUrl = payload.baseUrl ∧
      authorization payload.authMode payload.credentials = .ok (some header) ∧
      (provider ≠ .prometheus → r.tenant = payload.tenantId.filter (· ≠ "")) := by
  intro header hh
  unfold resolve at h
  split at h
  · obtain rfl := Except.ok.inj h
    cases hh
  · split at h
    · cases h
    · rename_i profile found
      split_ifs at h with scope allowed
      obtain ⟨secret, hs, h⟩ := Failing.bind_ok.mp h
      obtain ⟨value, hv, h⟩ := Failing.bind_ok.mp h
      obtain rfl := Except.ok.inj h
      obtain rfl : value = some header := hh
      have mode : profile.authMode ≠ .none := by
        intro none
        rw [none] at hv
        cases hv
      obtain ⟨payload, mem, auth, url, tenant, moment, cipher⟩ :=
        stored profile (Keyed.mem_of_get? found) mode
      have opened : profile.credentials x = .ok payload.credentials := by
        simp [Profile.credentials, mode, cipher, x.fernet.decrypt_encrypt, x.loads_dumps]
      obtain rfl := Except.ok.inj (opened.symm.trans hs)
      refine ⟨payload, mem, url, auth ▸ hv, fun other => ?_⟩
      simp only [Config.tenant, effective, if_neg other, tenant]

/-! ## Every run -/

theorem Sent.Allowed.mono {s t : State} {sent : Sent} (h : sent.Allowed s)
    (saves : s.saves ⊆ t.saves) (pairs : s.pairs ⊆ t.pairs) : sent.Allowed t := by
  intro header hh
  have known := h header hh
  split at known
  · obtain ⟨token, is, mem⟩ := known
    exact ⟨token, is, pairs mem⟩
  · obtain ⟨payload, mem, rest⟩ := known
    exact ⟨payload, saves mem, rest⟩

theorem pairs_entered (s : State) (more : List Pair) :
    s.pairs ⊆ (s.entered ++ more) ++ s.deployments.map (fun d => (d.url, d.token)) := by
  intro pair mem
  obtain mem | mem := List.mem_append.mp mem
  · exact List.mem_append_left _ (List.mem_append_left _ mem)
  · exact List.mem_append_right _ mem

/-- What an update of the connection asks for has been entered. -/
theorem Inv.candidate {s : State} (h : Inv x y s) {payload : ConnectionUpdate} {uuid : String}
    {moment : Nat} {c : Connection}
    (made : candidate y s.deployment s.row payload uuid moment = .ok c) :
    c.Stored y ((s.entered ++ payload.enters c) ++ s.deployments.map fun d => (d.url, d.token)) :=
  candidate_stored made h.row h.deployed (pairs_entered s _) fun _ mem =>
    List.mem_append_left _ (List.mem_append_right _ mem)

/-- A request is made, or the call fails. -/
theorem Inv.sending {s : State} (h : Inv x y s) {provider : Option Provider}
    {result : Except HTTPException Request}
    (allowed : ∀ r, result = .ok r → Sent.Allowed s ⟨provider, r⟩) :
    Inv x y (s.sending provider result) := by
  cases result with
  | error e => exact h
  | ok r =>
    refine ⟨h.control, h.profiles, h.row, h.known, h.updates, h.deployed, fun sent mem => ?_⟩
    obtain mem | mem := List.mem_append.mp mem
    · exact h.requests sent mem
    · obtain rfl := List.mem_singleton.mp mem
      exact allowed r rfl

/-- Operators have entered more, and the new state knows more connections. -/
theorem Inv.more {s : State} (h : Inv x y s) {known updates : List Connection}
    {entered : List Pair}
    (sub : s.pairs ⊆ entered ++ s.deployments.map fun d => (d.url, d.token))
    (hk : ∀ c ∈ known, c ∈ s.known ∨
      c.Stored y (entered ++ s.deployments.map fun d => (d.url, d.token)))
    (hu : ∀ c ∈ updates, c ∈ s.updates ∨
      c.Stored y (entered ++ s.deployments.map fun d => (d.url, d.token))) :
    Inv x y { s with known, updates, entered } := by
  refine ⟨h.control, h.profiles, fun c mem => (h.row c mem).mono sub, fun c mem => ?_,
    fun c mem => ?_, sub h.deployed,
    fun sent mem => (h.requests sent mem).mono (List.Subset.refl _) sub⟩
  · exact (hk c mem).elim (fun old => (h.known c old).mono sub) fun new => new
  · exact (hu c mem).elim (fun old => (h.updates c old).mono sub) fun new => new

theorem mem_concat {α : Type} {l : List α} {a : α} {P : α → Prop} (h : P a) :
    ∀ b ∈ l ++ [a], b ∈ l ∨ P b := by
  intro b mem
  obtain mem | mem := List.mem_append.mp mem
  · exact Or.inl mem
  · obtain rfl := List.mem_singleton.mp mem
    exact Or.inr h

theorem Inv.next {s t : State} {l : Step} (h : Inv x y s) (fresh : FreshIds s l)
    (hl : next x y s l = some t) : Inv x y t := by
  cases l with
  | profiles l =>
    obtain ⟨control, step, rfl⟩ := Option.map_eq_some_iff.mp hl
    have sub : s.saves ⊆ s.saves ++ committed s.control l := List.subset_append_left _ _
    exact ⟨h.control.next fresh step, profiles_entered h.control step h.profiles, h.row, h.known,
      h.updates, h.deployed, fun sent mem => (h.requests sent mem).mono sub (List.Subset.refl _)⟩
  | resolve provider config environment =>
    obtain rfl := Option.some.inj hl
    exact h.sending fun r made header hh => resolve_entered h.profiles made header hh
  | current =>
    obtain rfl := Option.some.inj hl
    exact h.more (List.Subset.refl _) (mem_concat (stored_current h.row)) fun c => Or.inl
  | candidate payload uuid moment =>
    simp only [Secrets.next] at hl
    split at hl
    · rename_i c made
      obtain rfl := Option.some.inj hl
      exact h.more (pairs_entered s _) (mem_concat (h.candidate made)) fun c => Or.inl
    · obtain rfl := Option.some.inj hl
      exact h
  | update payload uuid moment =>
    simp only [Secrets.next] at hl
    split at hl
    · rename_i c made
      obtain rfl := Option.some.inj hl
      exact h.more (pairs_entered s _) (fun c => Or.inl) (mem_concat (h.candidate made))
    · obtain rfl := Option.some.inj hl
      exact h
  | write n =>
    obtain ⟨c, hn, rfl⟩ := Option.map_eq_some_iff.mp hl
    refine ⟨h.control, h.profiles, ?_, h.known, h.updates, h.deployed, h.requests⟩
    rintro _ ⟨⟩
    exact h.updates c (List.mem_of_getElem? hn)
  | send n =>
    obtain ⟨c, hn, rfl⟩ := Option.map_eq_some_iff.mp hl
    refine h.sending fun r made header hh => ?_
    obtain ⟨t, is, mem⟩ :=
      response_entered (h.known c (List.mem_of_getElem? hn)) h.deployed made
    exact ⟨t, Option.some.inj (hh.symm.trans is), mem⟩
  | deploy d =>
    obtain rfl := Option.some.inj hl
    have sub : s.pairs ⊆
        s.entered ++ (s.deployments ++ [d]).map fun d => (d.url, d.token) := by
      rw [List.map_append, ← List.append_assoc]
      exact List.subset_append_left _ _
    refine ⟨h.control, h.profiles, fun c mem => (h.row c mem).mono sub,
      fun c mem => (h.known c mem).mono sub, fun c mem => (h.updates c mem).mono sub, ?_,
      fun sent mem => (h.requests sent mem).mono (List.Subset.refl _) sub⟩
    exact List.mem_append_right _ (List.mem_map_of_mem (List.mem_append_right _
      (List.mem_singleton_self d)))

theorem inv_start (d : Deployment) : Inv x y (start d) where
  control := ControlPlane.inv_empty
  profiles p mem := by simp [start] at mem
  row c mem := by simp [start] at mem
  known c mem := by simp [start] at mem
  updates c mem := by simp [start] at mem
  deployed := by simp [start, State.pairs]
  requests sent mem := by simp [start] at mem

theorem run_inv {d : Deployment} {s : State} {ls : List Step}
    (fresh : (machine x y).Along FreshIds (start d) ls)
    (run : (machine x y).exec (start d) ls = some s) : Inv x y s :=
  (machine x y).invariant_along (fun _ _ _ h ok hl => h.next ok hl) (inv_start d) fresh run

theorem secrets_stay_with_endpoint (d : Deployment) (ls : List Step) (s : State)
    (run : (machine x y).exec (start d) ls = some s)
    (fresh : (machine x y).Along FreshIds (start d) ls) :
    (∀ sent ∈ s.requests, sent.Allowed s) ∧
    (∀ before l after a b, ls = before ++ l :: after →
      (machine x y).exec (start d) before = some a → next x y a l = some b →
      ∀ (n : Nat) (payload : ProfileInput) (id : Option String) (p : Profile),
        a.control.calls[n]? = some (.commit (.profile payload id p)) →
        b.control.calls[n]? = some (.returned (.profile payload id p)) →
        payload.authMode ≠ .none → payload.credentials.entries = [] →
          ∃ q, a.control.db.profile p.id = some q ∧ SameEndpoint p q ∧
            p.credentialCipher = q.credentialCipher) ∧
    ∀ (row : Option Connection) (payload : ConnectionUpdate) (uuid : String) (moment : Nat)
      (c : Connection), candidate y s.deployment row payload uuid moment = .ok c →
        payload.mode = .ui → payload.secret = "" →
          c.url = (Chamber.current y s.deployment row).url ∧ ∃ t,
            c.tokenCipher = some (y.fernet.encrypt moment t) ∧
            token y s.deployment (Chamber.current y s.deployment row) = .ok t := by
  refine ⟨(run_inv fresh run).requests, ?_, fun row payload uuid moment c made ui omitted => ?_⟩
  · rintro before l after a b rfl ha - n payload id p before' - mode omitted
    have inv := run_inv (fresh.of_append ha).1 ha
    have writes : a.control.db.Writes x payload id p := inv.control.stages n _ before'
    exact writes.kept (writes.endpoint.1 ▸ mode) omitted
  · obtain ⟨-, t, -, cipher, ht⟩ := candidate_ui made ui
    rw [candidateToken, if_neg (not_not.mpr omitted)] at ht
    split_ifs at ht with other
    exact ⟨(not_not.mp other).symm, t, cipher, ht⟩

/-- Origins are taken as they are. -/
def plainChamber : Chamber.Library where
  origin := .ok
  allowed _ := true
  digest url := url
  fernet := plainFernet

instance (s : State) : (l : Step) → Decidable (FreshIds s l)
  | .profiles l => inferInstanceAs (Decidable (ControlPlane.FreshIds s.control l))
  | .resolve .. | .current | .candidate .. | .update .. | .write _ | .send _ | .deploy _ =>
    inferInstanceAs (Decidable True)

def withTenant (provider : Provider) : ProfileInput :=
  ⟨"name", "dev", provider, "http://a", some "x", .bearer, { token := some "s" }, none⟩

/-- A profile is saved. -/
def saved (provider : Provider) : List Step :=
  [.profiles (.call (.saveProfile (withTenant provider) none)), .profiles (.await 0 "p" 0),
    .profiles (.await 0 "p" 0), .profiles (.await 0 "p" 0), .profiles (.await 0 "q" 0),
    .profiles (.commit 0)]

/-- A profile is saved and a request to its provider is made. -/
def savedAndUsed (provider : Provider) : List Step :=
  saved provider ++ [.resolve provider ⟨some "p", "http://b", none⟩ "dev"]

/-- The same endpoint without authentication. -/
def unauthenticated : ProfileInput :=
  { withTenant .loki with authMode := .none, credentials := {}, revision := some 1 }

/-- A profile is saved, and saved again without authentication up to its commit. -/
def savedAndChanged : List Step :=
  saved .loki ++ [.profiles (.call (.saveProfile unauthenticated (some "p"))),
    .profiles (.await 1 "r" 0), .profiles (.await 1 "r" 0), .profiles (.await 1 "r" 0),
    .profiles (.await 1 "r" 0)]

/-- The token of the deployment is kept for the same URL, and used with an old connection. -/
def chamberUsed : List Step :=
  [.current, .update ⟨.ui, "http://c", none⟩ "u" 0, .write 0, .current, .send 0, .send 1]

def deployed : Deployment := ⟨"http://c", "t"⟩

theorem loki_and_chamber_allowed :
    ∃ s, (machine plainLibrary plainChamber).exec (start deployed)
        (savedAndUsed .loki ++ chamberUsed) = some s ∧
      s.requests = [⟨some .loki, ⟨"http://a", some "x", some (.bearer "s")⟩⟩,
        ⟨none, ⟨"http://c", none, some (.bearer "t")⟩⟩,
        ⟨none, ⟨"http://c", none, some (.bearer "t")⟩⟩] ∧
      ∀ sent ∈ s.requests, sent.Allowed s := by
  have fresh : (machine plainLibrary plainChamber).Along FreshIds (start deployed)
      (savedAndUsed .loki ++ chamberUsed) := by decide +kernel
  have made : ((machine plainLibrary plainChamber).exec (start deployed)
      (savedAndUsed .loki ++ chamberUsed)).map State.requests =
        some [⟨some .loki, ⟨"http://a", some "x", some (.bearer "s")⟩⟩,
          ⟨none, ⟨"http://c", none, some (.bearer "t")⟩⟩,
          ⟨none, ⟨"http://c", none, some (.bearer "t")⟩⟩] := by decide +kernel
  obtain ⟨s, run, requests⟩ := Option.map_eq_some_iff.mp made
  exact ⟨s, run, requests, (secrets_stay_with_endpoint deployed _ s run fresh).1⟩

/-- A secret that was entered with a tenant is sent without one; and a save that omits the secret is
accepted, and the secret of the unchanged URL and tenant is gone. -/
theorem sent_without_tenant_and_dropped :
    (∃ s, (machine plainLibrary plainChamber).exec (start deployed)
        (savedAndUsed .prometheus) = some s ∧
      ∃ sent ∈ s.requests, ∃ header, sent.request.authorization = some header ∧
        ∀ payload ∈ s.saves, sent.request.tenant ≠ payload.tenantId) ∧
    ∃ a b p, (machine plainLibrary plainChamber).exec (start deployed) savedAndChanged = some a ∧
      next plainLibrary plainChamber a (.profiles (.commit 1)) = some b ∧
      b.control.calls[1]? = some (.returned (.profile unauthenticated (some "p") p)) ∧
      unauthenticated.credentials.entries = [] ∧
      (∃ q, a.control.db.profile "p" = some q ∧ q.credentialCipher.isSome = true ∧
        p.id = q.id ∧ p.baseUrl = q.baseUrl ∧ p.tenantId = q.tenantId) ∧
      b.control.db.profile "p" = some p ∧ p.credentialCipher = none := by
  constructor
  · have made : ((machine plainLibrary plainChamber).exec (start deployed)
        (savedAndUsed .prometheus)).map (fun s => (s.requests, s.saves)) =
          some ([⟨some .prometheus, ⟨"http://a", none, some (.bearer "s")⟩⟩],
            [withTenant .prometheus]) := by decide +kernel
    obtain ⟨s, run, seen⟩ := Option.map_eq_some_iff.mp made
    obtain ⟨requests, saves⟩ := Prod.mk.inj seen
    refine ⟨s, run, _, requests ▸ List.mem_singleton_self _, _, rfl, fun payload mem => ?_⟩
    rw [saves] at mem
    obtain rfl := List.mem_singleton.mp mem
    decide
  · have made : ((machine plainLibrary plainChamber).exec (start deployed) savedAndChanged).any
        (fun a => (next plainLibrary plainChamber a (.profiles (.commit 1))).any fun b =>
          (a.control.db.profile "p").any fun q => (b.control.db.profile "p").any fun p =>
            decide (b.control.calls[1]? =
                some (.returned (.profile unauthenticated (some "p") p)) ∧
              q.credentialCipher.isSome = true ∧ (p.id = q.id ∧ p.baseUrl = q.baseUrl ∧
                p.tenantId = q.tenantId) ∧ p.credentialCipher = none)) := by decide +kernel
    obtain ⟨a, run, made⟩ := (Option.any_eq_true _ _).mp made
    obtain ⟨b, committed, made⟩ := (Option.any_eq_true _ _).mp made
    obtain ⟨q, stored, made⟩ := (Option.any_eq_true _ _).mp made
    obtain ⟨p, left, made⟩ := (Option.any_eq_true _ _).mp made
    obtain ⟨returned, held, same, dropped⟩ := of_decide_eq_true made
    exact ⟨a, b, p, run, committed, returned, rfl, ⟨q, stored, held, same⟩, left, dropped⟩

end Relayna.Studio.Secrets
