import Mathlib.Data.List.Nodup
import Relayna.Status.Store

/-!
# Status history under failures and concurrency

Two systems over the same `set_history` steps. `hubs` runs any number of calls on one task,
interleaved at their Redis commands: the history holds each event once, newest first and
bounded. `redelivery` runs the calls for one event one after the other, as a hub's
`reject(requeue=True)` causes them: the event reaches the history before a call returns,
provided that no failed push leaves its marker behind.
-/
namespace Relayna.Status

open Python Storage Transition

namespace SetHistory

/-- The call inserted the marker and has neither pushed the event nor given up. -/
def Holding (p : SetHistory) : Prop := p = .push ∨ p = .deleteMarker

theorem not_holding_afterChild (c : RedisStatusStore) : ¬ Holding (afterChild c) := by
  unfold afterChild Holding
  split <;> simp

theorem not_holding_afterHistory (c : RedisStatusStore) (event : Value) :
    ¬ Holding (afterHistory c event) := by
  unfold afterHistory
  split
  · simp [Holding]
  · exact not_holding_afterChild c

/-- Everything one command can do to the marker and the history of its event. -/
theorem await_cases (c : RedisStatusStore) (taskId : String) (e : Value) (k : TaskKeys)
    (p : SetHistory) (r : Reply) {p' : SetHistory} {k' : TaskKeys}
    (h : await c taskId e k p r = (p', k')) :
    (k.markers (c.eventKey taskId e) = none ∧ p' = .push ∧
      k' = { k with markers := Function.update k.markers (c.eventKey taskId e) (some .pending) }) ∨
    (p = .push ∧ ¬ Holding p' ∧
      k' = { k with
        history := ltrim (e :: k.history) 0 (c.historyMaxlen - 1)
        pushed := k.pushed ++ [e] }) ∨
    (p = .push ∧ p' = .deleteMarker ∧ k' = k) ∨
    (p = .deleteMarker ∧ p' = .raised ∧
      k' = { k with markers := Function.update k.markers (c.eventKey taskId e) none }) ∨
    (¬ Holding p' ∧ k'.history = k.history ∧ k'.pushed = k.pushed ∧
      ∀ x, (k.markers x).isSome → (k'.markers x).isSome) := by
  cases p <;> cases r <;> simp only [await, Prod.mk.injEq] at h
  case setPending.ok =>
    split at h
    · next hm =>
      obtain ⟨rfl, rfl⟩ := h
      exact Or.inl ⟨Option.isNone_iff_eq_none.mp hm, rfl, rfl⟩
    · obtain ⟨rfl, rfl⟩ := h
      simp [Holding]
  case getMarker.ok =>
    split at h
    · obtain ⟨rfl, rfl⟩ := h
      simp [Holding]
    · obtain ⟨rfl, rfl⟩ := h
      simp [not_holding_afterHistory]
  case push.ok =>
    obtain ⟨rfl, rfl⟩ := h
    exact Or.inr (Or.inl ⟨rfl, not_holding_afterHistory c e, rfl⟩)
  case push.exception =>
    obtain ⟨rfl, rfl⟩ := h
    exact Or.inr (Or.inr (Or.inl ⟨rfl, rfl, rfl⟩))
  case deleteMarker.ok =>
    obtain ⟨rfl, rfl⟩ := h
    exact Or.inr (Or.inr (Or.inr (Or.inl ⟨rfl, rfl, rfl⟩)))
  case addChild.ok =>
    obtain ⟨rfl, rfl⟩ := h
    simp [not_holding_afterChild]
  case setComplete.ok =>
    obtain ⟨rfl, rfl⟩ := h
    refine Or.inr (Or.inr (Or.inr (Or.inr ⟨by simp [Holding], rfl, rfl, fun x hx => ?_⟩)))
    by_cases hk : x = c.eventKey taskId e
    · simp [hk]
    · simpa [Function.update_of_ne hk] using hx
  all_goals
    obtain ⟨rfl, rfl⟩ := h
    simp [Holding]

end SetHistory

/-! ## Any number of calls on one task -/

/-- `calls n` is the event and the place of the `n`-th call, once it has started. -/
structure Hubs where
  keys : TaskKeys
  calls : Nat → Option (Value × SetHistory)

def Hubs.init : Hubs := ⟨.init, fun _ => none⟩

inductive HubStep where
  | start (n : Nat) (event : Value)
  | await (n : Nat) (reply : Reply)

def hubs (c : RedisStatusStore) (taskId : String) : Machine Hubs HubStep where
  next s l := match l with
    | .start n event =>
      if (s.calls n).isNone then
        some { s with calls := Function.update s.calls n (some (event, .setPending)) }
      else none
    | .await n reply => (s.calls n).map fun call =>
      let after := SetHistory.await c taskId call.1 s.keys call.2 reply
      ⟨after.2, Function.update s.calls n (some (call.1, after.1))⟩

/-- A pushed event keeps its marker because only a holder deletes one, there is at most one
holder per event, and a holder that has pushed no longer is one. -/
structure HistoryInv (c : RedisStatusStore) (taskId : String) (s : Hubs) : Prop where
  held : ∀ n e p, s.calls n = some (e, p) → p.Holding →
    (s.keys.markers (c.eventKey taskId e)).isSome
  sole : ∀ n m e f p q, s.calls n = some (e, p) → s.calls m = some (f, q) → p.Holding →
    q.Holding → c.eventKey taskId e = c.eventKey taskId f → n = m
  kept : ∀ f ∈ s.keys.pushed, (s.keys.markers (c.eventKey taskId f)).isSome
  settled : ∀ f ∈ s.keys.pushed, ∀ n e p, s.calls n = some (e, p) → p.Holding →
    c.eventKey taskId e ≠ c.eventKey taskId f
  once : (s.keys.pushed.map (c.eventKey taskId)).Nodup
  newest : s.keys.history = s.keys.pushed.reverse.take c.historyMaxlen.toNat

theorem HistoryInv.initial (c : RedisStatusStore) (taskId : String) :
    HistoryInv c taskId Hubs.init := by
  constructor <;> simp [Hubs.init, TaskKeys.init]

section Step

variable {c : RedisStatusStore} {taskId : String} {s : Hubs} {n : Nat} {e : Value}

/-- A call that is no holder after its step: the holders are the other ones from before. -/
theorem other_holder {p q : SetHistory} {m : Nat} {f : Value} (hp : ¬ p.Holding)
    (hm : Function.update s.calls n (some (e, p)) m = some (f, q)) (hq : q.Holding) :
    m ≠ n ∧ s.calls m = some (f, q) := by
  rcases update_some_cases hm with ⟨-, hb⟩ | h
  · have hqp : q = p := (Prod.mk.inj hb).2
    exact absurd (hqp ▸ hq) hp
  · exact h

theorem HistoryInv.quiet (h : HistoryInv c taskId s) {p : SetHistory} (hp : ¬ p.Holding)
    {k : TaskKeys} (hist : k.history = s.keys.history) (push : k.pushed = s.keys.pushed)
    (mark : ∀ x, (s.keys.markers x).isSome → (k.markers x).isSome) :
    HistoryInv c taskId ⟨k, Function.update s.calls n (some (e, p))⟩ := by
  constructor
  · intro m f q hm hq
    exact mark _ (h.held m f q (other_holder hp hm hq).2 hq)
  · intro m m' f f' q q' hm hm' hq hq'
    have hm := (other_holder hp hm hq).2
    have hm' := (other_holder hp hm' hq').2
    exact h.sole m m' f f' q q' hm hm' hq hq'
  · intro f hf
    exact mark _ (h.kept f (push ▸ hf))
  · intro f hf m g q hm hq
    exact h.settled f (push ▸ hf) m g q (other_holder hp hm hq).2 hq
  · simpa [push] using h.once
  · simpa [push, hist] using h.newest

/-- `SET NX` inserted the marker. No other call holds this event: its marker would be there. -/
theorem HistoryInv.claim (h : HistoryInv c taskId s)
    (absent : s.keys.markers (c.eventKey taskId e) = none) :
    HistoryInv c taskId
      ⟨{ s.keys with
          markers := Function.update s.keys.markers (c.eventKey taskId e) (some .pending) },
        Function.update s.calls n (some (e, .push))⟩ := by
  have present : ∀ x, (s.keys.markers x).isSome →
      (Function.update s.keys.markers (c.eventKey taskId e) (some .pending) x).isSome := by
    intro x hx
    by_cases hk : x = c.eventKey taskId e
    · simp [hk]
    · simpa [Function.update_of_ne hk] using hx
  have other : ∀ m f q, s.calls m = some (f, q) → q.Holding →
      c.eventKey taskId f ≠ c.eventKey taskId e := by
    intro m f q hm hq hk
    have hsome := h.held m f q hm hq
    rw [hk, absent] at hsome
    exact absurd hsome (by simp)
  constructor
  · intro m f q hm hq
    rcases update_some_cases hm with ⟨-, hb⟩ | ⟨-, hm⟩
    · rw [(Prod.mk.inj hb).1]
      simp
    · dsimp only
      exact present _ (h.held m f q hm hq)
  · intro m m' f f' q q' hm hm' hq hq' hk
    rcases update_some_cases hm with ⟨hmn, hb⟩ | ⟨-, hm⟩ <;>
      rcases update_some_cases hm' with ⟨hmn', hb'⟩ | ⟨-, hm'⟩
    · exact hmn.trans hmn'.symm
    · rw [(Prod.mk.inj hb).1] at hk
      exact absurd hk.symm (other m' f' q' hm' hq')
    · rw [(Prod.mk.inj hb').1] at hk
      exact absurd hk (other m f q hm hq)
    · exact h.sole m m' f f' q q' hm hm' hq hq' hk
  · intro f hf
    dsimp only
    exact present _ (h.kept f hf)
  · intro f hf m g q hm hq hk
    rcases update_some_cases hm with ⟨-, hb⟩ | ⟨-, hm⟩
    · have hsome := h.kept f hf
      rw [← hk, (Prod.mk.inj hb).1, absent] at hsome
      exact absurd hsome (by simp)
    · exact h.settled f hf m g q hm hq hk
  · exact h.once
  · exact h.newest

theorem HistoryInv.push (h : HistoryInv c taskId s) (bound : 1 ≤ c.historyMaxlen)
    {p : SetHistory} (hn : s.calls n = some (e, .push)) (hp : ¬ p.Holding) :
    HistoryInv c taskId
      ⟨{ s.keys with
          history := ltrim (e :: s.keys.history) 0 (c.historyMaxlen - 1)
          pushed := s.keys.pushed ++ [e] },
        Function.update s.calls n (some (e, p))⟩ := by
  have fresh : ∀ f ∈ s.keys.pushed, c.eventKey taskId f ≠ c.eventKey taskId e := by
    intro f hf hk
    exact h.settled f hf n e .push hn (Or.inl rfl) hk.symm
  constructor
  · intro m f q hm hq
    exact h.held m f q (other_holder hp hm hq).2 hq
  · intro m m' f f' q q' hm hm' hq hq'
    have hm := (other_holder hp hm hq).2
    have hm' := (other_holder hp hm' hq').2
    exact h.sole m m' f f' q q' hm hm' hq hq'
  · intro f hf
    rcases List.mem_append.mp hf with hf | hf
    · exact h.kept f hf
    · rw [List.mem_singleton.mp hf]
      exact h.held n e .push hn (Or.inl rfl)
  · intro f hf m g q hm hq hk
    obtain ⟨hmn, hm⟩ := other_holder hp hm hq
    rcases List.mem_append.mp hf with hf | hf
    · exact h.settled f hf m g q hm hq hk
    · rw [List.mem_singleton.mp hf] at hk
      exact hmn (h.sole m n g e q .push hm hn hq (Or.inl rfl) hk)
  · rw [List.map_append, List.nodup_append]
    refine ⟨h.once, by simp, ?_⟩
    intro x hx y hy
    obtain ⟨f, hf, rfl⟩ := List.mem_map.mp hx
    rw [List.mem_singleton.mp hy]
    exact fresh f hf
  · obtain ⟨k, hk⟩ : ∃ k : Nat, c.historyMaxlen = k + 1 :=
      ⟨(c.historyMaxlen - 1).toNat, by omega⟩
    have hz : (0 : Int) ≤ c.historyMaxlen - 1 := by omega
    have hl : (c.historyMaxlen - 1 + 1).toNat = k + 1 := by omega
    have hm : c.historyMaxlen.toNat = k + 1 := by omega
    simp only [ltrim, lrange_zero _ hz, hl, hm, h.newest, List.reverse_append,
      List.reverse_singleton, List.singleton_append, List.take_succ_cons, List.take_take]
    simp

/-- A failed push: the call stays the holder until it has deleted the marker. -/
theorem HistoryInv.giveUp (h : HistoryInv c taskId s) (hn : s.calls n = some (e, .push)) :
    HistoryInv c taskId ⟨s.keys, Function.update s.calls n (some (e, .deleteMarker))⟩ := by
  have old : ∀ m f q, Function.update s.calls n (some (e, .deleteMarker)) m = some (f, q) →
      q.Holding → ∃ q', s.calls m = some (f, q') ∧ q'.Holding := by
    intro m f q hm hq
    rcases update_some_cases hm with ⟨rfl, hb⟩ | ⟨-, hm⟩
    · rw [(Prod.mk.inj hb).1]
      exact ⟨.push, hn, Or.inl rfl⟩
    · exact ⟨q, hm, hq⟩
  constructor
  · intro m f q hm hq
    obtain ⟨q', hm', hq'⟩ := old m f q hm hq
    exact h.held m f q' hm' hq'
  · intro m m' f f' q q' hm hm' hq hq' hk
    obtain ⟨r, hr, hr'⟩ := old m f q hm hq
    obtain ⟨t, ht, ht'⟩ := old m' f' q' hm' hq'
    exact h.sole m m' f f' r t hr ht hr' ht' hk
  · exact h.kept
  · intro f hf m g q hm hq
    obtain ⟨q', hm', hq'⟩ := old m g q hm hq
    exact h.settled f hf m g q' hm' hq'
  · exact h.once
  · exact h.newest

theorem HistoryInv.release (h : HistoryInv c taskId s)
    (hn : s.calls n = some (e, .deleteMarker)) :
    HistoryInv c taskId
      ⟨{ s.keys with markers := Function.update s.keys.markers (c.eventKey taskId e) none },
        Function.update s.calls n (some (e, .raised))⟩ := by
  have hp : ¬ SetHistory.Holding .raised := by simp [SetHistory.Holding]
  have hold : SetHistory.Holding .deleteMarker := Or.inr rfl
  constructor
  · intro m f q hm hq
    obtain ⟨hmn, hm⟩ := other_holder hp hm hq
    have hk : c.eventKey taskId f ≠ c.eventKey taskId e := fun hk =>
      hmn (h.sole m n f e q .deleteMarker hm hn hq hold hk)
    simpa [Function.update_of_ne hk] using h.held m f q hm hq
  · intro m m' f f' q q' hm hm' hq hq'
    have hm := (other_holder hp hm hq).2
    have hm' := (other_holder hp hm' hq').2
    exact h.sole m m' f f' q q' hm hm' hq hq'
  · intro f hf
    have hk : c.eventKey taskId f ≠ c.eventKey taskId e := fun hk =>
      h.settled f hf n e .deleteMarker hn hold hk.symm
    simpa [Function.update_of_ne hk] using h.kept f hf
  · intro f hf m g q hm hq
    exact h.settled f hf m g q (other_holder hp hm hq).2 hq
  · exact h.once
  · exact h.newest

/-- One step of any call keeps the invariant. -/
theorem HistoryInv.next (bound : 1 ≤ c.historyMaxlen) {t : Hubs} {l : HubStep}
    (h : HistoryInv c taskId s) (hs : (hubs c taskId).next s l = some t) :
    HistoryInv c taskId t := by
  cases l with
  | start n event =>
    simp only [hubs, Option.ite_none_right_eq_some, Option.some.injEq] at hs
    rw [← hs.2]
    exact h.quiet (by simp [SetHistory.Holding]) rfl rfl fun _ hx => hx
  | await n reply =>
    obtain ⟨⟨e, p⟩, hn, rfl⟩ := Option.map_eq_some_iff.mp hs
    obtain ⟨p', k', hpk⟩ : ∃ p' k', SetHistory.await c taskId e s.keys p reply = (p', k') :=
      ⟨_, _, rfl⟩
    simp only [hpk]
    rcases SetHistory.await_cases c taskId e s.keys p reply hpk with
      ⟨absent, rfl, rfl⟩ | ⟨rfl, hp, rfl⟩ | ⟨rfl, rfl, rfl⟩ | ⟨rfl, rfl, rfl⟩ |
        ⟨hp, hist, push, mark⟩
    · exact h.claim absent
    · exact h.push bound hn hp
    · exact h.giveUp hn
    · exact h.release hn
    · exact h.quiet hp hist push mark

end Step

/-- In every state the calls on one task can reach, the history holds at most one entry per
event token, at most `history_maxlen` of them, and reads newest first. -/
theorem history_unique_newest_first_bounded (c : RedisStatusStore) (taskId : String)
    (bound : 1 ≤ c.historyMaxlen) (ls : List HubStep) (s : Hubs)
    (run : (hubs c taskId).exec Hubs.init ls = some s) :
    (s.keys.history.map c.eventToken).Nodup ∧
    (s.keys.history.length : Int) ≤ c.historyMaxlen ∧
    ∀ limit : Int, 1 ≤ limit →
      c.getHistory s.keys (some limit) =
        s.keys.pushed.reverse.take (min limit.toNat s.keys.history.length) := by
  have h : HistoryInv c taskId s :=
    Machine.invariant (fun _ _ _ h hs => h.next bound hs) (HistoryInv.initial c taskId) run
  have tokens : (s.keys.pushed.map c.eventToken).Nodup := by
    have keys : ∀ e ∈ s.keys.pushed, ∀ f ∈ s.keys.pushed,
        c.eventKey taskId e = c.eventKey taskId f → e = f := List.inj_on_of_nodup_map h.once
    refine List.Nodup.map_on (fun e he f hf hk => ?_) (List.Nodup.of_map _ h.once)
    exact keys e he f hf ((c.eventKey_eq_iff taskId e f).mpr hk)
  refine ⟨?_, ?_, fun limit hl => ?_⟩
  · rw [h.newest, List.map_take, List.map_reverse]
    exact (List.nodup_reverse.mpr tokens).sublist (List.take_sublist _ _)
  · rw [h.newest, List.length_take]
    omega
  · have hz : (0 : Int) ≤ max 0 (limit - 1) := by omega
    have hn : (max 0 (limit - 1) + 1).toNat = limit.toNat := by omega
    simp only [RedisStatusStore.getHistory, Option.getD_some, lrange_zero _ hz, hn]
    rw [h.newest, List.take_take, List.take_eq_take_iff]
    simp only [List.length_take, List.length_reverse]
    omega

/-- Texts as they are, and a history of one entry. -/
def shortHistory : RedisStatusStore where
  text := plainText
  keyPrefix := "relayna"
  historyMaxlen := 1
  serviceEventStore := false

def statusEvent (eventId : String) : Value := .dict [("event_id", .str eventId)]

/-- Two hubs hold the same event, and a second event follows. -/
def twoHubs : List HubStep :=
  [.start 0 (statusEvent "a"), .start 1 (statusEvent "a"), .await 0 .ok, .await 1 .ok,
    .await 0 .ok, .await 1 .ok, .start 2 (statusEvent "b"), .await 2 .ok, .await 2 .ok]

theorem history_unique_newest_first_bounded_on_two_hubs :
    ∃ s, (hubs shortHistory "t").exec Hubs.init twoHubs = some s ∧
      s.keys.pushed = [statusEvent "a", statusEvent "b"] ∧
      shortHistory.getHistory s.keys (some 5) = [statusEvent "b"] ∧
      (s.keys.history.map shortHistory.eventToken).Nodup := by
  have run : ∃ s, (hubs shortHistory "t").exec Hubs.init twoHubs = some s ∧
      s.keys.pushed = [statusEvent "a", statusEvent "b"] ∧
      s.keys.history = [statusEvent "b"] := ⟨_, rfl, rfl, rfl⟩
  obtain ⟨s, hs, pushed, history⟩ := run
  obtain ⟨unique, -, recent⟩ := history_unique_newest_first_bounded shortHistory "t"
    (by decide) twoHubs s hs
  refine ⟨s, hs, pushed, ?_, unique⟩
  rw [recent 5 (by decide), pushed, history]
  rfl

/-! ## One event, delivered again after a failure -/

/-- `call` is the delivery being handled, or how the last one ended. -/
structure Redelivery where
  keys : TaskKeys
  call : SetHistory

inductive DeliveryStep where
  | deliver
  | await (reply : Reply)
  deriving DecidableEq, Repr

/-- Before the first delivery nothing is being handled, as after a raised one. -/
def Redelivery.init (k : TaskKeys) : Redelivery := ⟨k, .raised⟩

def redelivery (c : RedisStatusStore) (taskId : String) (event : Value) :
    Machine Redelivery DeliveryStep where
  next s l := match l with
    | .deliver =>
      if s.call = .raised ∨ s.call = .returned then some { s with call := .setPending } else none
    | .await reply =>
      if s.call = .raised ∨ s.call = .returned then none
      else
        let after := SetHistory.await c taskId event s.keys s.call reply
        some ⟨after.2, after.1⟩

/-- A push that does not take effect is undone: it raises an `Exception`, and the delete that
compensates for it succeeds. -/
def Compensated (s : Redelivery) (l : DeliveryStep) : Prop :=
  (s.call = .push → l ≠ .await .cancelled) ∧ (s.call = .deleteMarker → l = .await .ok)

instance (s : Redelivery) (l : DeliveryStep) : Decidable (Compensated s l) :=
  inferInstanceAs (Decidable (_ ∧ _))

namespace SetHistory

/-- The call has seen the event pushed, by itself or by an earlier delivery. -/
def Beyond (p : SetHistory) : Prop :=
  p = .getMarker ∨ p = .addChild ∨ p = .addStatusEvent ∨ p = .publish ∨ p = .setComplete ∨
    p = .returned

end SetHistory

/-- While no call is between inserting the marker and pushing, a marker means a pushed event. -/
structure DeliveryInv (c : RedisStatusStore) (taskId : String) (e : Value) (s : Redelivery) :
    Prop where
  marked : (s.keys.markers (c.eventKey taskId e)).isSome → ¬ s.call.Holding → e ∈ s.keys.pushed
  beyond : s.call.Beyond → e ∈ s.keys.pushed

section Delivery

variable {c : RedisStatusStore} {taskId : String} {e : Value} {k : TaskKeys} {p : SetHistory}

theorem DeliveryInv.of_pushed {s : Redelivery} (h : e ∈ s.keys.pushed) :
    DeliveryInv c taskId e s :=
  ⟨fun _ _ => h, fun _ => h⟩

/-- A command that fails outside the push ends the call and changes nothing. -/
theorem DeliveryInv.raise (h : DeliveryInv c taskId e ⟨k, p⟩) (hp : ¬ p.Holding) :
    DeliveryInv c taskId e ⟨k, .raised⟩ :=
  ⟨fun hm _ => h.marked hm hp, fun hb => by simp [SetHistory.Beyond] at hb⟩

theorem DeliveryInv.setPending (h : DeliveryInv c taskId e ⟨k, .setPending⟩) (reply : Reply) :
    DeliveryInv c taskId e ⟨(SetHistory.await c taskId e k .setPending reply).2,
      (SetHistory.await c taskId e k .setPending reply).1⟩ := by
  have hp : ¬ SetHistory.Holding .setPending := by simp [SetHistory.Holding]
  cases reply with
  | ok =>
    simp only [SetHistory.await]
    split
    · exact ⟨fun _ hp => absurd (Or.inl rfl) hp, fun hb => by simp [SetHistory.Beyond] at hb⟩
    · next hm =>
      rw [Option.isNone_iff_eq_none, ← ne_eq, Option.ne_none_iff_isSome] at hm
      exact .of_pushed (h.marked hm hp)
  | exception => exact h.raise hp
  | cancelled => exact h.raise hp

theorem DeliveryInv.push {reply : Reply} (comp : reply ≠ .cancelled) :
    DeliveryInv c taskId e ⟨(SetHistory.await c taskId e k .push reply).2,
      (SetHistory.await c taskId e k .push reply).1⟩ := by
  cases reply with
  | ok => exact .of_pushed (by simp [SetHistory.await])
  | exception =>
    refine ⟨fun _ hp => absurd (Or.inr rfl) hp, fun hb => ?_⟩
    simp [SetHistory.await, SetHistory.Beyond] at hb
  | cancelled => exact absurd rfl comp

theorem DeliveryInv.deleteMarker :
    DeliveryInv c taskId e ⟨(SetHistory.await c taskId e k .deleteMarker .ok).2,
      (SetHistory.await c taskId e k .deleteMarker .ok).1⟩ :=
  ⟨fun hm _ => by simp [SetHistory.await] at hm, fun hb => by
    simp [SetHistory.await, SetHistory.Beyond] at hb⟩

/-- Past the push nothing takes the event out again. -/
theorem SetHistory.await_pushed (h : e ∈ k.pushed) (reply : Reply) :
    e ∈ (SetHistory.await c taskId e k p reply).2.pushed := by
  obtain ⟨p', k', hpk⟩ : ∃ p' k', SetHistory.await c taskId e k p reply = (p', k') := ⟨_, _, rfl⟩
  rw [hpk]
  rcases SetHistory.await_cases c taskId e k p reply hpk with
    ⟨-, -, rfl⟩ | ⟨-, -, rfl⟩ | ⟨-, -, rfl⟩ | ⟨-, -, rfl⟩ | ⟨-, -, same, -⟩
  · exact h
  · exact List.mem_append_left _ h
  · exact h
  · exact h
  · exact same ▸ h

theorem DeliveryInv.next {s t : Redelivery} {l : DeliveryStep} (h : DeliveryInv c taskId e s)
    (comp : Compensated s l) (hs : (redelivery c taskId e).next s l = some t) :
    DeliveryInv c taskId e t := by
  obtain ⟨k, p⟩ := s
  cases l with
  | deliver =>
    simp only [redelivery, Option.ite_none_right_eq_some, Option.some.injEq] at hs
    obtain ⟨idle, rfl⟩ := hs
    refine ⟨fun hm _ => h.marked hm ?_, fun hb => by simp [SetHistory.Beyond] at hb⟩
    rcases idle with rfl | rfl <;> simp [SetHistory.Holding]
  | await reply =>
    simp only [redelivery, Option.ite_none_left_eq_some, Option.some.injEq] at hs
    obtain ⟨running, rfl⟩ := hs
    cases p with
    | setPending => exact h.setPending reply
    | push =>
      refine DeliveryInv.push fun hr => ?_
      exact comp.1 rfl (by rw [hr])
    | deleteMarker =>
      have hr : reply = .ok := by simpa using comp.2 rfl
      exact hr ▸ DeliveryInv.deleteMarker
    | raised | returned => simp at running
    | getMarker | addChild | addStatusEvent | publish | setComplete =>
      exact .of_pushed (SetHistory.await_pushed (h.beyond (by simp [SetHistory.Beyond])) reply)

end Delivery

/-- In every run of deliveries of one event whose failed pushes are undone, the event is in the
history whenever a call has returned. -/
theorem returned_delivery_is_pushed (c : RedisStatusStore) (taskId : String) (e : Value)
    (k : TaskKeys) (unseen : k.markers (c.eventKey taskId e) = none) (ls : List DeliveryStep)
    (s : Redelivery) (along : (redelivery c taskId e).Along Compensated (Redelivery.init k) ls)
    (run : (redelivery c taskId e).exec (Redelivery.init k) ls = some s)
    (returned : s.call = .returned) : e ∈ s.keys.pushed := by
  have start : DeliveryInv c taskId e (Redelivery.init k) := by
    refine ⟨fun hm _ => ?_, fun hb => ?_⟩
    · simp [Redelivery.init, unseen] at hm
    · simp [Redelivery.init, SetHistory.Beyond] at hb
  have h : DeliveryInv c taskId e s :=
    Machine.invariant_along (fun _ _ _ h comp hs => h.next comp hs) start along run
  exact h.beyond (by simp [returned, SetHistory.Beyond])

/-- The push fails once, its marker is deleted, and the second delivery goes through. -/
def failedOnce : List DeliveryStep :=
  [.deliver, .await .ok, .await .exception, .await .ok,
    .deliver, .await .ok, .await .ok, .await .ok, .await .ok]

theorem returned_delivery_is_pushed_after_one_failure :
    ∃ s, (redelivery shortHistory "t" (statusEvent "a")).exec (.init .init) failedOnce = some s ∧
      s.call = .returned ∧ statusEvent "a" ∈ s.keys.pushed := by
  refine ⟨_, rfl, rfl, ?_⟩
  exact returned_delivery_is_pushed shortHistory "t" (statusEvent "a") .init rfl failedOnce _
    (by decide) rfl rfl

/-- The push fails and so does the delete of its marker: the second delivery finds the marker,
skips the push and returns. -/
theorem returned_delivery_without_push :
    ¬ ∀ (ls : List DeliveryStep) (s : Redelivery),
      (redelivery shortHistory "t" (statusEvent "a")).exec (.init .init) ls = some s →
        s.call = .returned → statusEvent "a" ∈ s.keys.pushed := by
  intro h
  have pushed := h [.deliver, .await .ok, .await .exception, .await .exception,
    .deliver, .await .ok, .await .ok, .await .ok, .await .ok] _ rfl rfl
  exact absurd pushed List.not_mem_nil

end Relayna.Status
