import Mathlib.Data.Finset.Max
import Mathlib.Data.List.Sort
import Mathlib.Data.Prod.Lex
import Mathlib.Data.String.Basic
import Relayna.Contracts.Aliases
import Relayna.Foundation.Names
import Relayna.Foundation.Transition
import Relayna.Studio.Recovery

/-!
# E-mails about reliability alerts

`_deliver` takes an alert of a goal under the lock of the goal's row, sends an e-mail about it
unless the row has a receipt of one, and writes the row back. The row keeps a hundred receipts. They
are kept by their place in the dictionary, and PostgreSQL gives a `JSONB` dictionary back in the
order of its keys, so the receipt that is left out is the one with the least digest and not the
oldest.

The text of the e-mail and the path of the investigation are parameters; the path of a start that is
too early for a `datetime` raises.
-/
namespace Relayna.Studio.Reliability

open Python Contracts Recovery Transition

inductive AlertStatus
  | firing | resolved
  deriving DecidableEq, Repr

/-- An `_Alert`, whose `startsAt` has been written the one way `_iso` does. -/
structure Alert where
  status : AlertStatus
  labels : Fields String
  startsAt : String
  deriving DecidableEq, Repr

/-- The fields of a `_Goal` that `_deliver` reads. -/
structure Goal where
  id : String
  revision : String
  serviceId : String
  environment : String
  owner : String
  name : String
  receivers : List String
  deriving DecidableEq, Repr

/-- The receipts of an episode: when each status was e-mailed. -/
structure Episode where
  firing : Option String := none
  resolved : Option String := none
  deriving DecidableEq, Repr

inductive DeliveryState
  | sent | duplicate | disabled | failed
  deriving DecidableEq, Repr

structure Delivery where
  received : Nat := 0
  sent : Nat := 0
  duplicates : Nat := 0
  episodes : Fields Episode := []
  lastReceivedAt : Option String := none
  lastStatus : Option AlertStatus := none
  alertStartedAt : Option String := none
  investigationUrl : Option String := none
  state : Option DeliveryState := none
  detail : Option String := none
  deriving DecidableEq, Repr

/-- The row of the service that the transaction locks. -/
structure ServiceRow where
  environment : String
  disabled : Bool
  deleted : Bool
  deriving DecidableEq, Repr

structure Mail where
  receivers : List String
  title : String
  body : String
  deriving DecidableEq, Repr

structure Builtins where
  text : Text
  /-- `_timestamp` of a `startsAt`. -/
  timestamp : String → Int
  iso : Int → String
  investigation : Goal → String → Option String
  publicUrl : String

/-- One call of `_deliver` and what it meets: the time, the service, whether e-mail is configured
and enabled, and whether the transport takes the e-mail. -/
structure Call where
  alert : Alert
  now : Int
  service : Option ServiceRow
  enabled : Bool
  transport : Bool
  deriving DecidableEq, Repr

def AlertStatus.name : AlertStatus → String
  | .firing => "firing"
  | .resolved => "resolved"

/-- `episode.get(status)`. -/
def Episode.get (e : Episode) : AlertStatus → Option String
  | .firing => e.firing
  | .resolved => e.resolved

def Episode.set (e : Episode) (status : AlertStatus) (at_ : String) : Episode :=
  match status with
  | .firing => { e with firing := some at_ }
  | .resolved => { e with resolved := some at_ }

def alertNames : List String := ["RelaynaReliabilityGoal", "RelaynaReliabilityEvidenceMissing"]

def Alert.name (a : Alert) : String := (a.labels.lookup "alertname").getD ""

/-- What identifies an episode: `(alertname, startsAt)`. -/
def Alert.episode (a : Alert) : String × String := (a.name, a.startsAt)

/-- The labels that the alert must have. -/
def Goal.expected (goal : Goal) : Fields String :=
  [("relayna_goal_revision", goal.revision), ("service_id", goal.serviceId),
    ("environment", goal.environment), ("owner", goal.owner)]

/-- A dictionary as `JSONB` gives it back: shorter keys first, then in their own order. -/
def jsonb {α : Type} (d : Fields α) : Fields α :=
  d.insertionSort fun a b => toLex (a.1.utf8ByteSize, a.1) ≤ toLex (b.1.utf8ByteSize, b.1)

/-- `dict(list(episodes.items())[-100:])`. -/
def lastHundred {α : Type} (d : Fields α) : Fields α := d.drop (d.length - 100)

namespace Builtins

variable (c : Builtins)

/-- `episode_key`. -/
def episodeKey (a : Alert) : String := c.text.sha256 (a.name ++ a.startsAt)

/-- What `_deliver` refuses before it looks at the receipts. -/
def refusal (goal : Goal) (call : Call) : Option HTTPException :=
  match call.service with
  | none => some ⟨404, "Reliability goal service no longer exists."⟩
  | some service =>
    if service.deleted then some ⟨404, "Reliability goal service no longer exists."⟩
    else if service.environment ≠ goal.environment ∨ service.disabled = true then
      some ⟨409, "Reliability goal service scope changed or is disabled."⟩
    else if (∃ label ∈ goal.expected, call.alert.labels.lookup label.1 ≠ some label.2) ∨
        call.alert.name ∉ alertNames then
      some ⟨409, "Alert labels do not match the current goal and routing scope."⟩
    else if c.timestamp call.alert.startsAt > call.now + 30000000 then
      some ⟨422, "Alert start time is in the future."⟩
    else none

def mail (goal : Goal) (a : Alert) (path : String) : Mail where
  receivers := goal.receivers
  title := "[Relayna] " ++ a.status.name ++ ": " ++ goal.name
  body := "Goal: " ++ goal.id ++ "\nOwner: " ++ goal.owner ++ "\nService: " ++ goal.serviceId ++
    "\nEnvironment: " ++ goal.environment ++ "\nAlert: " ++ a.name ++ "\nStarted: " ++ a.startsAt ++
    "\nInvestigation path: " ++ c.publicUrl ++ path

/-- The receipts that the row has of the alert's episode. -/
def receipt (d : Delivery) (a : Alert) : Episode := (d.episodes.lookup (c.episodeKey a)).getD {}

/-- The alert is a duplicate. -/
def receipted (d : Delivery) (a : Alert) : Bool :=
  ((c.receipt d a).get a.status).isSome || (c.receipt d a).resolved.isSome

/-- The delivery with the receipt of an e-mail that was sent. -/
def sentTo (d : Delivery) (call : Call) : Delivery :=
  let episode := (c.receipt d call.alert).set call.alert.status (c.iso call.now)
  { d with
    episodes := lastHundred (d.episodes.set (c.episodeKey call.alert) episode)
    sent := d.sent + 1 }

/-- `_deliver` of an alert that is not refused: the delivery it writes, how it ended and the e-mail.
`none` when the path of the investigation raises, and then nothing is written. -/
def record (goal : Goal) (d : Delivery) (call : Call) :
    Option (Delivery × DeliveryState × Option Mail) :=
  let d := { d with received := d.received + 1, lastReceivedAt := some (c.iso call.now) }
  if c.receipted d call.alert then
    some ({ d with duplicates := d.duplicates + 1, state := some .duplicate, detail := none },
      .duplicate, none)
  else
    (c.investigation goal call.alert.startsAt).map fun path =>
      let (d, state, failure, mail) :=
        if call.enabled = false then
          (d, DeliveryState.disabled, some "Shared email delivery is disabled or not configured.",
            none)
        else if call.transport then
          (c.sentTo d call, .sent, none, some (c.mail goal call.alert path))
        else (d, .failed, some "Email transport failed; Alertmanager should retry.", none)
      ({ d with
          lastStatus := some call.alert.status
          alertStartedAt := some call.alert.startsAt
          investigationUrl := some path
          state := some state
          detail := failure }, state, mail)

end Builtins

/-! ## Calls for one goal -/

/-- The row of the goal with what has happened: the calls that wrote it, with how each ended, the
e-mails, and the keys of the receipts that were left out. -/
structure Run where
  delivery : Delivery := {}
  log : List (Alert × DeliveryState) := []
  mails : List Mail := []
  dropped : List String := []
  deriving DecidableEq

namespace Run

/-- The keys that a new receipt pushes out. -/
def pushedOut (c : Builtins) (d : Delivery) (call : Call) : List String :=
  let episodes := d.episodes.set (c.episodeKey call.alert) {}
  (episodes.take (episodes.length - 100)).map Prod.fst

/-- A call of `_deliver`. What raises leaves the row as it is. -/
def next (c : Builtins) (goal : Goal) (s : Run) (call : Call) : Option Run :=
  match c.refusal goal call with
  | some _ => some s
  | none =>
    match c.record goal s.delivery call with
    | none => some s
    | some (d, state, mail) => some {
        delivery := { d with episodes := jsonb d.episodes }
        log := s.log ++ [(call.alert, state)]
        mails := s.mails ++ mail.toList
        dropped := if state = .sent then s.dropped ++ pushedOut c s.delivery call else s.dropped }

/-- The statuses of an episode that have been e-mailed, in order. -/
def emailed (s : Run) (episode : String × String) : List AlertStatus :=
  (s.log.filter fun entry => entry.1.episode = episode ∧ entry.2 = .sent).map (·.1.status)

/-- The calls that had nothing sent because the transport failed or e-mail is disabled. -/
def undelivered (s : Run) : Nat :=
  s.log.countP fun entry => entry.2 = .failed ∨ entry.2 = .disabled

end Run

def machine (c : Builtins) (goal : Goal) : Machine Run Call := ⟨Run.next c goal⟩

/-! ## Dictionaries in another order -/

section Dictionaries

variable {α : Type} {d e : Fields α} {key other : String} {v w : α}

theorem lookup_of_perm (keys : (d.map Prod.fst).Nodup) (same : d.Perm e) :
    d.lookup key = e.lookup key := by
  have keys' := (same.map Prod.fst).nodup_iff.mp keys
  cases found : e.lookup key with
  | some v => exact Fields.lookup_of_mem keys (same.mem_iff.mpr (Fields.mem_of_lookup found))
  | none =>
    cases found' : d.lookup key with
    | none => rfl
    | some v =>
      rw [Fields.lookup_of_mem keys' (same.mem_iff.mp (Fields.mem_of_lookup found'))] at found
      cases found

theorem perm_jsonb (d : Fields α) : (jsonb d).Perm d := List.perm_insertionSort _ d

theorem lookup_jsonb (keys : (d.map Prod.fst).Nodup) : (jsonb d).lookup key = d.lookup key :=
  (lookup_of_perm keys (perm_jsonb d).symm).symm

theorem keys_jsonb (keys : (d.map Prod.fst).Nodup) : ((jsonb d).map Prod.fst).Nodup :=
  ((perm_jsonb d).map Prod.fst).nodup_iff.mpr keys

theorem keys_lastHundred (keys : (d.map Prod.fst).Nodup) : ((lastHundred d).map Prod.fst).Nodup :=
  keys.sublist ((List.drop_sublist _ d).map Prod.fst)

/-- What is not among the first entries is found among the last. -/
theorem lookup_lastHundred (kept : key ∉ (d.take (d.length - 100)).map Prod.fst) :
    (lastHundred d).lookup key = d.lookup key := by
  have absent : (d.take (d.length - 100)).lookup key = none := by
    rw [List.lookup_eq_none_iff]
    intro entry member
    have ne : key ≠ entry.1 := fun same => kept (same ▸ List.mem_map_of_mem member)
    simpa using ne
  have whole := congrArg (List.lookup key) (List.take_append_drop (d.length - 100) d)
  rw [List.lookup_append, absent, Option.none_or] at whole
  exact whole

theorem map_fst_set : (d.set key v).map Prod.fst = (d.set key w).map Prod.fst := by
  unfold Fields.set
  split
  · rw [List.map_map, List.map_map]
    refine List.map_congr_left fun entry _ => ?_
    dsimp only [Function.comp]
    split <;> rfl
  · rw [List.map_append, List.map_append, List.map_singleton, List.map_singleton]

end Dictionaries

/-! ## One call -/

section Steps

variable {c : Builtins} {goal : Goal} {s t : Run} {call : Call} {d d' : Delivery}
  {state : DeliveryState} {mail : Option Mail} {status other : AlertStatus} {at_ : String}
  {episode : Episode}

theorem Episode.get_set : (episode.set status at_).get other =
    if other = status then some at_ else episode.get other := by
  cases status <;> cases other <;> rfl

/-- The key of an episode's receipt. -/
def Builtins.keyOf (c : Builtins) (episode : String × String) : String :=
  c.text.sha256 (episode.1 ++ episode.2)

/-- What `record` does. -/
inductive Recorded (c : Builtins) (d : Delivery) (call : Call) : Delivery → DeliveryState → Prop
  | duplicate {d' : Delivery} (seen : c.receipted d call.alert = true)
      (received : d'.received = d.received + 1) (sent : d'.sent = d.sent)
      (duplicates : d'.duplicates = d.duplicates + 1) (episodes : d'.episodes = d.episodes) :
      Recorded c d call d' .duplicate
  | unsent {d' : Delivery} {state : DeliveryState} (new : c.receipted d call.alert = false)
      (undelivered : state = .failed ∨ state = .disabled)
      (received : d'.received = d.received + 1) (sent : d'.sent = d.sent)
      (duplicates : d'.duplicates = d.duplicates) (episodes : d'.episodes = d.episodes) :
      Recorded c d call d' state
  | sent {d' : Delivery} (new : c.receipted d call.alert = false)
      (received : d'.received = d.received + 1) (sent : d'.sent = d.sent + 1)
      (duplicates : d'.duplicates = d.duplicates)
      (episodes : d'.episodes = lastHundred (d.episodes.set (c.episodeKey call.alert)
        ((c.receipt d call.alert).set call.alert.status (c.iso call.now)))) :
      Recorded c d call d' .sent

theorem recorded (h : c.record goal d call = some (d', state, mail)) :
    Recorded c d call d' state := by
  unfold Builtins.record at h
  dsimp only at h
  split at h
  · next seen =>
    obtain ⟨rfl, rfl, -⟩ := by simpa only [Option.some.injEq, Prod.mk.injEq] using h
    exact .duplicate seen rfl rfl rfl rfl
  · next new =>
    have new : c.receipted d call.alert = false := Bool.eq_false_iff.mpr new
    obtain ⟨path, -, h⟩ := Option.map_eq_some_iff.mp h
    split at h
    · obtain ⟨rfl, rfl, -⟩ := by simpa only [Prod.mk.injEq] using h
      exact .unsent new (Or.inr rfl) rfl rfl rfl rfl
    · split at h
      · obtain ⟨rfl, rfl, -⟩ := by simpa only [Prod.mk.injEq] using h
        exact .sent new rfl rfl rfl rfl
      · obtain ⟨rfl, rfl, -⟩ := by simpa only [Prod.mk.injEq] using h
        exact .unsent new (Or.inl rfl) rfl rfl rfl rfl

/-- What a call does to the row and to the record of what happened. -/
inductive Taken (c : Builtins) (s : Run) (call : Call) : Run → Prop
  | raised : Taken c s call s
  | wrote {t : Run} {d : Delivery} {state : DeliveryState}
      (recorded : Recorded c s.delivery call d state)
      (delivery : t.delivery = { d with episodes := jsonb d.episodes })
      (log : t.log = s.log ++ [(call.alert, state)])
      (dropped : t.dropped = if state = .sent then s.dropped ++ Run.pushedOut c s.delivery call
        else s.dropped) : Taken c s call t

theorem taken (h : (machine c goal).next s call = some t) : Taken c s call t := by
  change Run.next c goal s call = some t at h
  unfold Run.next at h
  split at h
  · obtain rfl := Option.some.inj h
    exact .raised
  · split at h
    · obtain rfl := Option.some.inj h
      exact .raised
    · next d state mail done =>
      obtain rfl := Option.some.inj h
      exact .wrote (recorded done) rfl rfl rfl

theorem emailed_of_log {entry : Alert × DeliveryState} (log : t.log = s.log ++ [entry])
    (episode : String × String) : t.emailed episode = s.emailed episode ++
      if entry.1.episode = episode ∧ entry.2 = .sent then [entry.1.status] else [] := by
  rw [Run.emailed, Run.emailed, log, List.filter_append, List.map_append]
  congr 1
  split_ifs with here
  · rw [List.filter_singleton, decide_eq_true here, cond_true, List.map_singleton]
  · rw [List.filter_singleton, decide_eq_false here, cond_false, List.map_nil]

/-! ## Whole runs -/

/-- Every call is counted once. -/
def Run.Counted (s : Run) : Prop :=
  s.delivery.received = s.delivery.sent + s.delivery.duplicates + s.undelivered

theorem Run.Counted.step (h : s.Counted) (next : (machine c goal).next s call = some t) :
    t.Counted := by
  unfold Run.Counted at h ⊢
  cases taken next with
  | raised => exact h
  | wrote did delivery log dropped =>
    rw [Run.undelivered, log, List.countP_append, ← Run.undelivered, delivery]
    cases did with
    | duplicate seen received sent duplicates episodes =>
      simp [received, sent, duplicates, h]
      omega
    | unsent new undelivered received sent duplicates episodes =>
      simp [received, sent, duplicates, h, undelivered]
      omega
    | sent new received sent duplicates episodes =>
      simp [received, sent, duplicates, h]
      omega

/-- The receipts have no key twice. -/
def Run.KeysOnce (s : Run) : Prop := (s.delivery.episodes.map Prod.fst).Nodup

theorem Run.KeysOnce.step (h : s.KeysOnce) (next : (machine c goal).next s call = some t) :
    t.KeysOnce := by
  unfold Run.KeysOnce at h ⊢
  cases taken next with
  | raised => exact h
  | wrote did delivery log dropped =>
    rw [delivery]
    refine keys_jsonb ?_
    cases did with
    | duplicate seen received sent duplicates episodes => rwa [episodes]
    | unsent new undelivered received sent duplicates episodes => rwa [episodes]
    | sent new received sent duplicates episodes =>
      rw [episodes]
      exact keys_lastHundred (Fields.keys_set h)

/-- What comes after nothing, or a resolved alert after a firing one. -/
theorem sublist_concat {l : List AlertStatus} (h : l.Sublist [.firing, .resolved])
    (new : status ∉ l) (open_ : .resolved ∉ l) : (l ++ [status]).Sublist [.firing, .resolved] := by
  simp only [List.sublist_cons_iff, List.sublist_nil] at h
  obtain (rfl | ⟨_, rfl, rfl⟩) | ⟨_, rfl, rfl | ⟨_, rfl, rfl⟩⟩ := h
  · cases status <;> simp
  · simp at open_
  · cases status
    · simp at new
    · exact .refl _
  · simp at open_

/-- What was e-mailed of an episode, and that it has a receipt unless the receipt was dropped. -/
structure Run.Receipted (c : Builtins) (s : Run) : Prop where
  keys : s.KeysOnce
  once : ∀ episode, (s.emailed episode).Sublist [.firing, .resolved]
  receipts : ∀ episode, ∀ status ∈ s.emailed episode, c.keyOf episode ∈ s.dropped ∨
    (((s.delivery.episodes.lookup (c.keyOf episode)).getD {}).get status).isSome = true

/-- No alert comes for an episode whose receipt was dropped. -/
def Retained (c : Builtins) (s : Run) (call : Call) : Prop := c.episodeKey call.alert ∉ s.dropped

theorem pushedOut_eq (v : Episode) : Run.pushedOut c d call =
    ((d.episodes.set (c.episodeKey call.alert) v).take
      ((d.episodes.set (c.episodeKey call.alert) v).length - 100)).map Prod.fst := by
  have keys : (d.episodes.set (c.episodeKey call.alert) v).map Prod.fst =
      (d.episodes.set (c.episodeKey call.alert) {}).map Prod.fst := map_fst_set
  have length := congrArg List.length keys
  rw [List.length_map, List.length_map] at length
  rw [Run.pushedOut, List.map_take, List.map_take, length, keys]

theorem Run.Receipted.step (h : s.Receipted c) (retained : Retained c s call)
    (next : (machine c goal).next s call = some t) : t.Receipted c := by
  have keys := h.keys.step next
  cases taken next with
  | raised => exact h
  | @wrote _ d state did delivery log dropped =>
    have emailed := emailed_of_log log
    have same (episodes : d.episodes = s.delivery.episodes) (other : state ≠ .sent) :
        t.Receipted c := by
      have emailed (episode : String × String) : t.emailed episode = s.emailed episode := by
        rw [emailed, if_neg fun both => other both.2, List.append_nil]
      refine ⟨keys, fun episode => emailed episode ▸ h.once episode,
        fun episode status member => ?_⟩
      rw [delivery, dropped, if_neg other]
      dsimp only
      rw [episodes, lookup_jsonb h.keys]
      exact h.receipts episode status (emailed episode ▸ member)
    cases did with
    | duplicate seen received sent duplicates episodes => exact same episodes (by decide)
    | unsent new undelivered received sent duplicates episodes =>
      refine same episodes ?_
      rcases undelivered with rfl | rfl <;> decide
    | sent new received sent duplicates episodes =>
      clear same
      obtain ⟨unsent, unresolved⟩ :
          ((c.receipt s.delivery call.alert).get call.alert.status) = none ∧
          (c.receipt s.delivery call.alert).resolved = none := by
        simpa [Builtins.receipted] using new
      -- Nothing of the episode has been e-mailed that its receipt does not have.
      have missing (status : AlertStatus)
          (absent : (c.receipt s.delivery call.alert).get status = none) :
          status ∉ s.emailed call.alert.episode := by
        intro member
        rcases h.receipts _ status member with gone | here
        · exact retained gone
        · rw [show ((s.delivery.episodes.lookup (c.keyOf call.alert.episode)).getD {}).get status =
            none from absent] at here
          cases here
      refine ⟨keys, fun episode => ?_, fun episode status member => ?_⟩
      · rw [emailed]
        split_ifs with here
        · obtain ⟨rfl, -⟩ := here
          exact sublist_concat (h.once _) (missing _ unsent) (missing _ unresolved)
        · rw [List.append_nil]
          exact h.once episode
      · rw [delivery, dropped, if_pos rfl, List.mem_append]
        by_cases pushed : c.keyOf episode ∈ Run.pushedOut c s.delivery call
        · exact Or.inl (Or.inr pushed)
        have old (other : episode = call.alert.episode → status ≠ call.alert.status) :
            status ∈ s.emailed episode := by
          rw [emailed] at member
          refine (List.mem_append.mp member).resolve_right fun new => ?_
          split_ifs at new with here
          · exact other here.1.symm (List.mem_singleton.mp new)
          · cases new
        rw [pushedOut_eq] at pushed
        dsimp only
        rw [episodes, lookup_jsonb (keys_lastHundred (Fields.keys_set h.keys)),
          lookup_lastHundred pushed]
        by_cases same : c.keyOf episode = c.episodeKey call.alert
        · rw [same, Fields.lookup_set_self, Option.getD_some, Episode.get_set]
          split_ifs with here
          · exact Or.inr rfl
          · have before := h.receipts episode status (old fun _ => here)
            rw [same] at before
            exact before.imp Or.inl id
        · rw [Fields.lookup_set_ne same]
          have apart : episode ≠ call.alert.episode := fun here => same (here ▸ rfl)
          exact (h.receipts episode status (old fun here => absurd here apart)).imp Or.inl id

/-- A call that sends its e-mail unless there is a receipt. -/
structure Sends (c : Builtins) (goal : Goal) (call : Call) : Prop where
  accepted : c.refusal goal call = none
  path : (c.investigation goal call.alert.startsAt).isSome = true
  enabled : call.enabled = true
  transport : call.transport = true

theorem Sends.next (h : Sends c goal call) (new : c.receipted s.delivery call.alert = false) :
    ∃ t, (machine c goal).next s call = some t ∧ t.log = s.log ++ [(call.alert, .sent)] ∧
      t.dropped = s.dropped ++ Run.pushedOut c s.delivery call ∧
      t.delivery.episodes = jsonb (lastHundred (s.delivery.episodes.set
        (c.episodeKey call.alert)
        ((c.receipt s.delivery call.alert).set call.alert.status (c.iso call.now)))) := by
  obtain ⟨path, found⟩ := Option.isSome_iff_exists.mp h.path
  obtain ⟨d, mail, done⟩ : ∃ d mail, c.record goal s.delivery call = some (d, .sent, mail) := by
    have new' : c.receipted { s.delivery with
        received := s.delivery.received + 1
        lastReceivedAt := some (c.iso call.now) } call.alert = false := new
    unfold Builtins.record
    dsimp only
    rw [if_neg (Bool.eq_false_iff.mp new'), found, Option.map_some, if_neg (by simp [h.enabled]),
      if_pos h.transport]
    exact ⟨_, _, rfl⟩
  have next : (machine c goal).next s call = some {
      delivery := { d with episodes := jsonb d.episodes }
      log := s.log ++ [(call.alert, .sent)]
      mails := s.mails ++ mail.toList
      dropped := s.dropped ++ Run.pushedOut c s.delivery call } := by
    change Run.next c goal s call = _
    unfold Run.next
    rw [h.accepted]
    dsimp only
    rw [done]
    rfl
  refine ⟨_, next, rfl, rfl, ?_⟩
  cases recorded done with
  | unsent _ undelivered => rcases undelivered with h | h <;> cases h
  | sent _ _ _ _ episodes => rw [episodes]

/-- What was not delivered is sent by the next call for it that can send. -/
theorem retried (keys : s.KeysOnce) (next : (machine c goal).next s call = some t)
    (undelivered : t.log = s.log ++ [(call.alert, .failed)] ∨
      t.log = s.log ++ [(call.alert, .disabled)]) {retry : Call} (same : retry.alert = call.alert)
    (sends : Sends c goal retry) :
    ∃ u, (machine c goal).next t retry = some u ∧ u.log = t.log ++ [(retry.alert, .sent)] := by
  have new : c.receipted t.delivery retry.alert = false := by
    cases taken next with
    | raised => rcases undelivered with h | h <;> simp at h
    | @wrote _ d state did delivery log dropped =>
      have ended : state = .failed ∨ state = .disabled := by
        rw [log] at undelivered
        simpa using undelivered
      have receipts (d' : Delivery) (episodes : d'.episodes = jsonb s.delivery.episodes) :
          c.receipted d' call.alert = c.receipted s.delivery call.alert := by
        rw [Builtins.receipted, Builtins.receipted, Builtins.receipt, Builtins.receipt, episodes,
          lookup_jsonb keys]
      cases did with
      | duplicate => rcases ended with h | h <;> cases h
      | unsent new _ _ _ _ episodes =>
        rw [same, receipts, new]
        rw [delivery, ← episodes]
      | sent => rcases ended with h | h <;> cases h
  obtain ⟨u, sent, log, -⟩ := sends.next new
  exact ⟨u, sent, log⟩

end Steps

theorem invariants {c : Builtins} {goal : Goal} {calls : List Call} {t : Run}
    (run : (machine c goal).exec {} calls = some t) : t.Counted ∧ t.KeysOnce := by
  have counted : Run.Counted {} := rfl
  have keys : Run.KeysOnce {} := List.nodup_nil
  exact ⟨Machine.invariant (fun _ _ _ h next => h.step next) counted run,
    Machine.invariant (fun _ _ _ h next => h.step next) keys run⟩

/-- As long as no alert comes for an episode whose receipt was dropped, each status of an episode
is e-mailed once and no firing e-mail follows a resolved one. -/
theorem alerts_mailed_once (c : Builtins) (goal : Goal) (calls : List Call) (t : Run)
    (run : (machine c goal).exec {} calls = some t)
    (retained : (machine c goal).Along (Retained c) {} calls) :
    (∀ episode, (t.emailed episode).Sublist [.firing, .resolved]) ∧
      t.delivery.received = t.delivery.sent + t.delivery.duplicates + t.undelivered ∧
      ∀ call u, (machine c goal).next t call = some u →
        u.log = t.log ++ [(call.alert, .failed)] ∨ u.log = t.log ++ [(call.alert, .disabled)] →
        ∀ retry : Call, retry.alert = call.alert → Sends c goal retry →
          ∃ v, (machine c goal).next u retry = some v ∧
            v.log = u.log ++ [(retry.alert, .sent)] := by
  obtain ⟨counted, keys⟩ := invariants run
  have receipted : t.Receipted c := by
    refine Machine.invariant_along (fun _ _ _ h ok next => h.step ok next) ?_ retained run
    exact ⟨List.nodup_nil, fun _ => List.nil_sublist _, fun _ _ member => absurd member
      List.not_mem_nil⟩
  exact ⟨receipted.once, counted, fun call u next undelivered retry same sends =>
    retried keys next undelivered same sends⟩

/-! ## The order of the digests -/

section Dropped

variable {c : Builtins} {goal : Goal} {s t : Run} {call : Call} {calls : List Call}

theorem receipted_of_absent {d : Delivery} {a : Alert}
    (absent : c.episodeKey a ∉ d.episodes.map Prod.fst) : c.receipted d a = false := by
  have none_ : d.episodes.lookup (c.episodeKey a) = none := by
    refine Fields.lookup_eq_none (Bool.eq_false_iff.mpr fun has => absent ?_)
    obtain ⟨entry, member, same⟩ := Fields.has_iff.mp has
    exact List.mem_map.mpr ⟨entry, member, same⟩
  rw [Builtins.receipted, Builtins.receipt, none_]
  cases a.status <;> rfl

theorem set_of_absent {d : Fields Episode} {key : String} {v : Episode}
    (absent : key ∉ d.map Prod.fst) : d.set key v = d ++ [(key, v)] := by
  rw [Fields.set, if_neg]
  intro has
  obtain ⟨entry, member, same⟩ := Fields.has_iff.mp has
  exact absent (List.mem_map.mpr ⟨entry, member, same⟩)

/-- What the row has after alerts of different episodes have been e-mailed. -/
structure Filled (c : Builtins) (s : Run) (calls : List Call) : Prop where
  keys : (s.delivery.episodes.map Prod.fst).Perm (calls.map fun call => c.episodeKey call.alert)
  sorted : s.delivery.episodes.Pairwise
    fun a b => toLex (a.1.utf8ByteSize, a.1) ≤ toLex (b.1.utf8ByteSize, b.1)
  log : s.log = calls.map fun call => (call.alert, .sent)

/-- A hundred receipts fit. -/
theorem filled (sends : ∀ call ∈ calls, Sends c goal call)
    (distinct : (calls.map fun call => c.episodeKey call.alert).Nodup) (few : calls.length ≤ 100) :
    ∃ t, (machine c goal).exec {} calls = some t ∧ Filled c t calls := by
  induction calls using List.reverseRecOn with
  | nil => exact ⟨{}, rfl, .refl _, .nil, rfl⟩
  | append_singleton calls call ih =>
    rw [List.map_append, List.map_singleton, List.nodup_append] at distinct
    rw [List.length_append, List.length_singleton] at few
    obtain ⟨s, run, full⟩ := ih (fun call h => sends call (List.mem_append_left _ h)) distinct.1
      (by omega)
    have absent : c.episodeKey call.alert ∉ s.delivery.episodes.map Prod.fst := fun member =>
      distinct.2.2 _ (full.keys.mem_iff.mp member) _ (List.mem_singleton_self _) rfl
    obtain ⟨t, next, log, -, episodes⟩ :=
      (sends call (by simp)).next (receipted_of_absent absent)
    have length := full.keys.length_eq
    rw [List.length_map, List.length_map] at length
    refine ⟨t, ?_, ?_, ?_, ?_⟩
    · rw [Machine.exec_append, run, Option.bind_some, Machine.exec_cons, next]
      rfl
    · rw [episodes, set_of_absent absent, lastHundred, List.length_append, length,
        List.length_singleton, Nat.sub_eq_zero_of_le few, List.drop_zero, List.map_append,
        List.map_singleton]
      refine ((perm_jsonb _).map Prod.fst).trans ?_
      rw [List.map_append, List.map_singleton]
      exact full.keys.append_right _
    · rw [episodes]
      exact List.pairwise_insertionSort _ _
    · rw [log, full.log, List.map_append, List.map_singleton]

/-- Between two alerts of one episode there are fewer than a hundred calls. -/
def Close (calls : List Call) : Prop :=
  ∀ u a v b w, calls = u ++ a :: (v ++ b :: w) → a.alert.episode = b.alert.episode →
    v.length < 100

theorem close_of_nodup {first : List Call} {again other : Call}
    (distinct : ((first ++ [again, other]).map fun call => call.alert.episode).Nodup) :
    Close (first ++ [again, other] ++ [again]) := by
  intro u a v b w split same
  obtain rfl | ⟨w, z, rfl⟩ := List.eq_nil_or_concat' w
  · have ends : first ++ again :: [other] = u ++ a :: v ∧ again = b := by
      have : (first ++ again :: [other]) ++ [again] = (u ++ a :: v) ++ [b] := by simp [split]
      simpa using List.append_inj' this rfl
    obtain ⟨start, rfl⟩ := ends
    have episodes := congrArg (List.map fun call => call.alert.episode) start
    simp only [List.map_append, List.map_cons, List.map_nil, same] at episodes
    rw [List.map_append, List.map_cons, List.nodup_append, List.nodup_cons] at distinct
    have later := ((List.append_cons_inj_of_notMem
      (fun member => distinct.2.2 _ member _ List.mem_cons_self rfl)
      distinct.2.1.1).mp episodes).2.2
    have length := congrArg List.length later
    rw [List.length_map, List.length_map] at length
    rw [← length, List.length_singleton]
    omega
  · exfalso
    have inside : u ++ a :: (v ++ b :: w) = first ++ [again, other] := by
      have : (u ++ a :: (v ++ b :: w)) ++ [z] = (first ++ [again, other]) ++ [again] := by
        simp [split]
      exact (List.append_inj' this rfl).1
    rw [← inside, List.map_append, List.map_cons, List.nodup_append, List.nodup_cons,
      same] at distinct
    exact distinct.2.1.1 (by simp)

/-- The receipt with the least digest is the first to be left out, however new it is. -/
theorem mailed_twice {callAt : Nat → Call} (sends : ∀ n, Sends c goal (callAt n))
    (firing : ∀ n, (callAt n).alert.status = .firing)
    (distinct : ∀ n m, c.episodeKey (callAt n).alert = c.episodeKey (callAt m).alert → n = m) :
    ∃ calls t, (machine c goal).exec {} calls = some t ∧ Close calls ∧
      ∃ episode, ¬(t.emailed episode).Sublist [.firing, .resolved] := by
  obtain ⟨m, hm, least⟩ := Finset.exists_min_image (Finset.range 100)
    (fun n => toLex ((c.episodeKey (callAt n).alert).utf8ByteSize, c.episodeKey (callAt n).alert))
    ⟨0, by simp⟩
  rw [Finset.mem_range] at hm
  have nodup : ((List.range 100).erase m ++ [m, 100]).Nodup := by
    have once : (List.range 100).Nodup := List.nodup_range
    refine List.Nodup.append (once.erase m) (by simpa using hm.ne) ?_
    intro n hn later
    rcases List.mem_cons.mp later with rfl | later
    · exact once.not_mem_erase hn
    · have small := List.mem_range.mp (List.mem_of_mem_erase hn)
      rw [List.mem_singleton.mp later] at small
      exact absurd small (by omega)
  obtain ⟨first, made⟩ : ∃ first, first = ((List.range 100).erase m).map callAt := ⟨_, rfl⟩
  have keys :
      ((first ++ [callAt m, callAt 100]).map fun call => c.episodeKey call.alert).Nodup := by
    have whole := nodup.map (f := fun n => c.episodeKey (callAt n).alert) fun n n' => distinct n n'
    rw [made]
    simpa [Function.comp_def] using whole
  have close : Close (first ++ [callAt m, callAt 100] ++ [callAt m]) := by
    refine close_of_nodup (List.Nodup.of_map (fun episode => c.keyOf episode) ?_)
    rwa [List.map_map]
  have sublist : (first ++ [callAt m]).Sublist (first ++ [callAt m, callAt 100]) := by simp
  have length : (first ++ [callAt m]).length = 100 := by
    simp [made, List.length_erase_of_mem (List.mem_range.mpr hm)]
  obtain ⟨s, run, full⟩ : ∃ t, (machine c goal).exec {} (first ++ [callAt m]) = some t ∧
      Filled c t (first ++ [callAt m]) := filled
    (fun call member => by
      have some_ : ∃ n, callAt n = call := by
        rcases List.mem_append.mp member with h | h
        · rw [made] at h
          obtain ⟨n, -, same⟩ := List.mem_map.mp h
          exact ⟨n, same⟩
        · exact ⟨m, (List.mem_singleton.mp h).symm⟩
      obtain ⟨n, rfl⟩ := some_
      exact sends n) (keys.sublist (sublist.map _)) length.le
  -- The alert with the least digest has the first receipt.
  obtain ⟨e, rest, episodes⟩ : ∃ e rest, s.delivery.episodes = e :: rest := by
    refine List.exists_cons_of_length_pos ?_
    have count := full.keys.length_eq
    rw [List.length_map, List.length_map, length] at count
    omega
  have head : e.1 = c.episodeKey (callAt m).alert := by
    have mine : c.episodeKey (callAt m).alert ∈ s.delivery.episodes.map Prod.fst :=
      full.keys.mem_iff.mpr (by simp)
    obtain ⟨n, hn, known⟩ : ∃ n < 100, c.episodeKey (callAt n).alert = e.1 := by
      have : e.1 ∈ s.delivery.episodes.map Prod.fst := by simp [episodes]
      obtain ⟨call, member, same⟩ := List.mem_map.mp (full.keys.mem_iff.mp this)
      rcases List.mem_append.mp member with h | h
      · rw [made] at h
        obtain ⟨n, hn, rfl⟩ := List.mem_map.mp h
        exact ⟨n, List.mem_range.mp (List.mem_of_mem_erase hn), same⟩
      · rw [List.mem_singleton.mp h] at same
        exact ⟨m, hm, same⟩
    have below := least n (Finset.mem_range.mpr hn)
    rw [known] at below
    obtain ⟨e', he', same⟩ := List.mem_map.mp mine
    rw [episodes] at he'
    rcases List.mem_cons.mp he' with rfl | later
    · exact same
    · have sorted := full.sorted
      rw [episodes, List.pairwise_cons] at sorted
      have above := sorted.1 e' later
      rw [same] at above
      exact (Prod.mk.inj (toLex.injective (le_antisymm above below))).2
  have once : (s.delivery.episodes.map Prod.fst).Nodup :=
    full.keys.nodup_iff.mpr (keys.sublist (sublist.map _))
  have absent : c.episodeKey (callAt 100).alert ∉ s.delivery.episodes.map Prod.fst := by
    intro member
    have := full.keys.mem_iff.mp member
    rw [List.map_append, List.map_cons, List.map_cons, List.map_nil, List.append_cons,
      ← List.map_singleton (f := fun call : Call => c.episodeKey call.alert), ← List.map_append,
      List.nodup_append] at keys
    exact keys.2.2 _ this _ (List.mem_singleton_self _) rfl
  obtain ⟨t, next, log, -, written⟩ := (sends 100).next (receipted_of_absent absent)
  have gone : c.episodeKey (callAt m).alert ∉ t.delivery.episodes.map Prod.fst := by
    have count := full.keys.length_eq
    rw [List.length_map, List.length_map, length] at count
    rw [set_of_absent absent, lastHundred, List.length_append, count, episodes] at written
    intro member
    rw [written] at member
    have kept := ((perm_jsonb _).map Prod.fst).mem_iff.mp member
    rw [episodes, List.map_cons, List.nodup_cons, head] at once
    rcases by simpa using kept with old | new
    · obtain ⟨receipt, member⟩ := old
      exact once.1 (List.mem_map_of_mem member)
    · exact absurd (distinct m 100 new) hm.ne
  obtain ⟨u, next', log', -⟩ := (sends m).next (receipted_of_absent gone)
  refine ⟨_, u, ?_, close, (callAt m).alert.episode, fun once => ?_⟩
  · have calls : first ++ [callAt m, callAt 100] ++ [callAt m] =
        (first ++ [callAt m]) ++ [callAt 100, callAt m] := by simp
    rw [calls, Machine.exec_append, run, Option.bind_some, Machine.exec_cons, next,
      Option.bind_some, Machine.exec_cons, next']
    rfl
  · have before : AlertStatus.firing ∈ s.emailed (callAt m).alert.episode := by
      rw [Run.emailed, full.log]
      refine List.mem_map.mpr ⟨((callAt m).alert, .sent), ?_, firing m⟩
      simp
    have twice : 1 < (u.emailed (callAt m).alert.episode).count .firing := by
      rw [emailed_of_log log', emailed_of_log log]
      dsimp only
      rw [if_pos (And.intro (Eq.refl (callAt m).alert.episode) (Eq.refl DeliveryState.sent)),
        firing m, List.count_append, List.count_append, List.count_singleton_self]
      have := List.count_pos_iff.mpr before
      omega
    have most := once.count_le .firing
    exact absurd (twice.trans_le most) (by decide)

end Dropped

/-- A goal and alerts of it that start in one second. -/
def sampleGoal : Goal where
  id := "goal-1"
  revision := "1"
  serviceId := "orders"
  environment := "prod"
  owner := "team"
  name := "Backlog"
  receivers := ["team@example.com"]

def sampleBuiltins : Builtins where
  text := plainText
  timestamp _ := 1767225600000000
  iso _ := "2026-01-01T00:05:00Z"
  investigation _ _ := some "/tasks/search"
  publicUrl := ""

def sampleCall (n : Nat) : Call where
  alert := {
    status := .firing
    labels := [("alertname", "RelaynaReliabilityGoal"), ("relayna_goal_revision", "1"),
      ("service_id", "orders"), ("environment", "prod"), ("owner", "team")]
    startsAt := "2026-01-01T00:00:00." ++ toString (100000 + n) ++ "Z" }
  now := 1767225900000000
  service := some ⟨"prod", false, false⟩
  enabled := true
  transport := true

theorem sampleCall_sends (n : Nat) : Sends sampleBuiltins sampleGoal (sampleCall n) where
  accepted := rfl
  path := rfl
  enabled := rfl
  transport := rfl

theorem sampleCall_distinct (n m : Nat) (same : sampleBuiltins.episodeKey (sampleCall n).alert =
    sampleBuiltins.episodeKey (sampleCall m).alert) : n = m := by
  have starts : "2026-01-01T00:00:00." ++ toString (100000 + n) ++ "Z" =
      "2026-01-01T00:00:00." ++ toString (100000 + m) ++ "Z" := Names.append_left_inj same
  have texts := congrArg String.toList starts
  simp only [String.toList_append] at texts
  have digits := List.append_cancel_left (List.append_cancel_right texts)
  have := Names.toString_inj (String.toList_inj.mp digits)
  omega

theorem sample_mailed_twice : ∃ calls t,
    (machine sampleBuiltins sampleGoal).exec {} calls = some t ∧ Close calls ∧
      ∃ episode, ¬(t.emailed episode).Sublist [.firing, .resolved] :=
  mailed_twice sampleCall_sends (fun _ => rfl) sampleCall_distinct

/-- One alert that comes twice. -/
theorem sample_mailed_once : ∃ t,
    (machine sampleBuiltins sampleGoal).exec {} [sampleCall 0, sampleCall 0] = some t ∧
      (t.emailed (sampleCall 0).alert.episode).Sublist [.firing, .resolved] ∧
      t.delivery.received = t.delivery.sent + t.delivery.duplicates + t.undelivered := by
  obtain ⟨t, run⟩ : ∃ t,
      (machine sampleBuiltins sampleGoal).exec {} [sampleCall 0, sampleCall 0] = some t := ⟨_, rfl⟩
  have retained : (machine sampleBuiltins sampleGoal).Along (Retained sampleBuiltins) {}
      [sampleCall 0, sampleCall 0] := by
    refine ⟨List.not_mem_nil, fun u next => ⟨?_, fun _ _ => trivial⟩⟩
    obtain rfl := Option.some.inj next
    exact List.not_mem_nil
  obtain ⟨once, counted, -⟩ := alerts_mailed_once sampleBuiltins sampleGoal _ t run retained
  exact ⟨t, run, once _, counted⟩

end Relayna.Studio.Reliability
