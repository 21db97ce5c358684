import Relayna.Contracts.Tabulated
import Relayna.Foundation.Reaching

/-!
# Replaying the status stream

`StreamHistoryReader.replay` reads the messages of the stream queue one after the other. A body
that does not parse is acknowledged and passed over. A body that parses to something else than an
object is acknowledged too, and then `normalize_contract_aliases` asks it for its `items`: the
`AttributeError` leaves `replay`, and the events found so far are lost.

The reference takes the messages up to the one that ends the replay and lists the public form of
those that match. `replay` gives it exactly when none of these bodies is such a document.
-/
namespace Relayna.Status

open Contracts Python Pass

/-- `lower` is `str.lower`. -/
structure StreamHistoryReader where
  codec : Codec
  lower : String → String
  outputAdapter : Option (Fields Value → Fields Value)
  aliasConfig : Option ContractAliasConfig

/-- The arguments of `replay` without a limit of time. -/
structure ReplayQuery where
  taskId : Option String
  terminalStatuses : List String := ["completed", "failed"]
  stopOnTerminal : Bool := true
  maxScan : Option Int

/-- How many messages have been acknowledged, and the events or the exception. -/
structure Replayed where
  acked : Nat
  result : Except (String × String) (List (Fields Value))

def Replayed.ack (r : Replayed) : Replayed := { r with acked := r.acked + 1 }

/-- `type(value).__name__`. -/
def typeName : Value → String
  | .none => "NoneType"
  | .bool _ => "bool"
  | .int _ => "int"
  | .float _ => "float"
  | .decimal _ _ => "Decimal"
  | .str _ => "str"
  | .bytes _ => "bytes"
  | .datetime _ => "datetime"
  | .list _ => "list"
  | .dict _ => "dict"

/-- What `payload.items()` raises. -/
def noItems (payload : Value) : String × String :=
  ("AttributeError", s!"'{typeName payload}' object has no attribute 'items'")

namespace StreamHistoryReader

variable (r : StreamHistoryReader) (q : ReplayQuery)

/-- `if task_id and current_task_id != task_id`: whether the event is kept. -/
def matchesTask (normalized : Fields Value) : Bool :=
  match q.taskId.bind nonEmpty with
  | some taskId => decide (((normalized.lookup "task_id").map r.codec.text.str).getD "" = taskId)
  | none => true

def adapted (normalized : Fields Value) : Fields Value :=
  (r.outputAdapter.getD id) normalized

/-- `str(normalized.get("status", "")).lower()`. -/
def statusOf (event : Fields Value) : String :=
  r.lower (((event.lookup "status").map r.codec.text.str).getD "")

/-- The loop over the messages, ended by the idle timeout behind the last one. -/
def replayLoop (events : List (Fields Value)) : List Bytes → Replayed
  | [] => ⟨0, .ok events⟩
  | body :: rest =>
    match r.codec.parseTransportJson body with
    | .error _ => (replayLoop events rest).ack
    | .ok (.dict payload) =>
      let normalized := normalizeContractAliases r.codec.text payload r.aliasConfig
      if r.matchesTask q normalized then
        let event := r.adapted normalized
        let status := r.statusOf event
        let events := events ++ [publicOutputAliases event r.aliasConfig]
        if q.maxScan.any fun n => decide (n ≤ (events.length : Int)) then ⟨1, .ok events⟩
        else if (q.taskId.bind nonEmpty).isSome && q.stopOnTerminal &&
            decide (status ∈ q.terminalStatuses) then ⟨1, .ok events⟩
        else (replayLoop events rest).ack
      else (replayLoop events rest).ack
    | .ok payload => ⟨1, .error (noItems payload)⟩

/-- `replay`. -/
def replay (bodies : List Bytes) : Replayed := r.replayLoop q [] bodies

/-! ## The reference -/

/-- The event of a well-formed object whose canonical `task_id` matches. -/
def matching (body : Bytes) : Option (Fields Value) :=
  match r.codec.parseTransportJson body with
  | .ok (.dict payload) =>
    let normalized := normalizeContractAliases r.codec.text payload r.aliasConfig
    if r.matchesTask q normalized then some normalized else none
  | _ => none

def publicForm (normalized : Fields Value) : Fields Value :=
  publicOutputAliases (r.adapted normalized) r.aliasConfig

/-- The replay ends here: at the `max_scan`-th match or, with a filter, at the first one with a
terminal status. -/
def stopsAt (before : List Bytes) (body : Bytes) : Bool :=
  match r.matching q body with
  | none => false
  | some normalized =>
    q.maxScan == some ((before.filterMap (r.matching q)).length + 1 : Int) ||
      (q.taskId.bind nonEmpty).isSome && q.stopOnTerminal &&
        decide (r.statusOf (r.adapted normalized) ∈ q.terminalStatuses)

def reference (bodies : List Bytes) : Replayed :=
  let read := taken (r.stopsAt q) [] bodies
  ⟨read.length, .ok ((read.filterMap (r.matching q)).map r.publicForm)⟩

/-- The body is no JSON, or a JSON object. -/
def Fit (body : Bytes) : Prop :=
  ∀ payload, r.codec.parseTransportJson body = .ok payload → ∃ fields, payload = .dict fields

theorem Replayed.ack_eq_iff {n : Nat} {res : Except (String × String) (List (Fields Value))}
    {p : Replayed} : p.ack = ⟨n + 1, res⟩ ↔ p = ⟨n, res⟩ := by
  cases p
  simp [Replayed.ack]

/-! ## One message -/

variable {r q} {body : Bytes} {before rest bodies : List Bytes} {events : List (Fields Value)}
  {normalized : Fields Value}

theorem replayLoop_unfit (unfit : ¬r.Fit body) :
    ∃ e, (r.replayLoop q events (body :: rest)).result = .error e := by
  unfold replayLoop
  cases h : r.codec.parseTransportJson body with
  | error text =>
    refine (unfit fun payload parsed => ?_).elim
    rw [h] at parsed
    cases parsed
  | ok payload =>
    cases payload with
    | dict fields =>
      refine (unfit fun payload parsed => ⟨fields, ?_⟩).elim
      exact (Except.ok.inj (h.symm.trans parsed)).symm
    | _ => exact ⟨_, rfl⟩

theorem replayLoop_passed (fit : r.Fit body) (other : r.matching q body = none) :
    r.replayLoop q events (body :: rest) = (r.replayLoop q events rest).ack := by
  unfold matching at other
  rw [replayLoop]
  cases h : r.codec.parseTransportJson body with
  | error text => rfl
  | ok payload =>
    obtain ⟨fields, rfl⟩ := fit payload h
    rw [h] at other
    exact if_neg fun kept => Option.some_ne_none _ ((if_pos kept).symm.trans other)

theorem replayLoop_matched (found : r.matching q body = some normalized) :
    r.replayLoop q events (body :: rest) =
      if q.maxScan.any (fun n => decide (n ≤ (events.length + 1 : Int))) ||
          (q.taskId.bind nonEmpty).isSome && q.stopOnTerminal &&
            decide (r.statusOf (r.adapted normalized) ∈ q.terminalStatuses) then
        ⟨1, .ok (events ++ [r.publicForm normalized])⟩
      else (r.replayLoop q (events ++ [r.publicForm normalized]) rest).ack := by
  unfold matching at found
  cases h : r.codec.parseTransportJson body with
  | error text =>
    rw [h] at found
    cases found
  | ok payload =>
    rw [h] at found
    cases payload with
    | dict fields =>
      dsimp only at found
      split at found
      · rename_i kept
        obtain rfl := Option.some.inj found
        rw [replayLoop, h]
        dsimp only
        rw [if_pos kept, List.length_append, List.length_singleton, Int.natCast_add,
          Int.natCast_one]
        cases q.maxScan.any fun n => decide (n ≤ (events.length + 1 : Int)) with
        | true => rfl
        | false => rfl
      · cases found
    | _ => cases found

/-! ## The whole run -/

theorem stopsAt_other (other : r.matching q body = none) : r.stopsAt q before body = false := by
  rw [stopsAt, other]

/-- Below the limit the loop ends where the reference does. -/
theorem stopsAt_matched (found : r.matching q body = some normalized)
    (counted : events.length = (before.filterMap (r.matching q)).length)
    (below : ∀ n, q.maxScan = some n → (events.length : Int) < n) :
    r.stopsAt q before body =
      (q.maxScan.any (fun n => decide (n ≤ (events.length + 1 : Int))) ||
        (q.taskId.bind nonEmpty).isSome && q.stopOnTerminal &&
          decide (r.statusOf (r.adapted normalized) ∈ q.terminalStatuses)) := by
  have limit : (q.maxScan == some ((before.filterMap (r.matching q)).length + 1 : Int)) =
      q.maxScan.any fun n => decide (n ≤ (events.length + 1 : Int)) := by
    cases h : q.maxScan with
    | none => rfl
    | some n =>
      have := below n h
      rw [← counted, Option.any_some, Bool.eq_iff_iff, beq_iff_eq, Option.some.injEq,
        decide_eq_true_eq]
      omega
  rw [stopsAt, found]
  dsimp only
  rw [limit]

theorem replayLoop_iff (counted : events.length = (before.filterMap (r.matching q)).length)
    (below : ∀ n, q.maxScan = some n → (events.length : Int) < n) :
    r.replayLoop q events bodies =
        ⟨(taken (r.stopsAt q) before bodies).length, .ok (events ++
          ((taken (r.stopsAt q) before bodies).filterMap (r.matching q)).map r.publicForm)⟩ ↔
      ∀ body ∈ taken (r.stopsAt q) before bodies, r.Fit body := by
  induction bodies generalizing before events with
  | nil =>
    rw [replayLoop, taken]
    exact iff_of_true (by simp) fun _ h => (List.not_mem_nil h).elim
  | cons body bodies ih =>
    by_cases fit : r.Fit body
    · cases found : r.matching q body with
      | none =>
        have goes : taken (r.stopsAt q) before (body :: bodies) =
            body :: taken (r.stopsAt q) (before ++ [body]) bodies :=
          taken_of_go (stopsAt_other found)
        have still : events.length = ((before ++ [body]).filterMap (r.matching q)).length := by
          rw [List.filterMap_append, List.filterMap_cons_none found, List.filterMap_nil,
            List.append_nil, counted]
        rw [goes, List.forall_mem_cons, and_iff_right fit, ← ih still below,
          replayLoop_passed fit found, List.filterMap_cons_none found, List.length_cons,
          Replayed.ack_eq_iff]
      | some normalized =>
        have more : (events ++ [r.publicForm normalized]).length =
            ((before ++ [body]).filterMap (r.matching q)).length := by
          rw [List.filterMap_append, List.filterMap_cons_some found, List.filterMap_nil,
            List.length_append, List.length_append, counted, List.length_singleton,
            List.length_singleton]
        have ends := stopsAt_matched found counted below
        rw [replayLoop_matched found, ← ends]
        cases stop : r.stopsAt q before body with
        | true =>
          rw [taken_of_stop stop, if_pos rfl, List.forall_mem_singleton,
            List.filterMap_cons_some found]
          exact iff_of_true rfl fit
        | false =>
          have room : ∀ n, q.maxScan = some n →
              ((events ++ [r.publicForm normalized]).length : Int) < n := by
            intro n hn
            rw [stop, hn, Option.any_some] at ends
            have under := of_decide_eq_false (Bool.or_eq_false_iff.mp ends.symm).1
            rw [List.length_append, List.length_singleton, Int.natCast_add, Int.natCast_one]
            exact Int.not_le.mp under
          rw [taken_of_go stop, List.forall_mem_cons, and_iff_right fit, ← ih more room,
            if_neg Bool.false_ne_true, List.filterMap_cons_some found, List.length_cons,
            Replayed.ack_eq_iff, List.map_cons, List.append_assoc, List.singleton_append]
    · obtain ⟨e, he⟩ : ∃ e, (r.replayLoop q events (body :: bodies)).result = .error e :=
        replayLoop_unfit fit
      refine iff_of_false (fun same => ?_) fun all => fit (all body ?_)
      · rw [same] at he
        cases he
      · rw [taken]
        exact List.mem_cons_self

/-- `replay` is its reference exactly when every body up to the end is a JSON object or no JSON. -/
theorem replay_iff (r : StreamHistoryReader) (q : ReplayQuery) (bodies : List Bytes)
    (positive : ∀ n, q.maxScan = some n → 1 ≤ n) :
    r.replay q bodies = r.reference q bodies ↔
      ∀ body ∈ taken (r.stopsAt q) [] bodies, r.Fit body :=
  replayLoop_iff rfl fun n hn => by
    have := positive n hn
    exact Int.lt_of_lt_of_le Int.zero_lt_one this

def emptyObject : Bytes := ascii "\x7b\x7d"
def emptyList : Bytes := ascii "[]"

def emptyDocuments : Codec := .tabulated [(emptyObject, .dict []), (emptyList, .list [])]

def emptyDocumentReader : StreamHistoryReader := ⟨emptyDocuments, id, none, none⟩

/-- An object behind a body that is no JSON. -/
theorem replay_iff_of_emptyObject :
    emptyDocumentReader.replay { taskId := none, maxScan := some 5 } [[], emptyObject] =
      ⟨2, .ok [[]]⟩ := by
  have fit : ∀ body ∈ [[], emptyObject], emptyDocumentReader.Fit body := by
    intro body member payload parsed
    obtain rfl | member := List.mem_cons.mp member
    · have failed : Except.error "EOF while parsing a value at line 1 column 0" =
        Except.ok payload := parsed
      cases failed
    · obtain rfl := List.mem_singleton.mp member
      have found : Except.ok (.dict []) = Except.ok payload := parsed
      exact ⟨[], (Except.ok.inj found).symm⟩
  have positive : ∀ n, some (5 : Int) = some n → 1 ≤ n := by
    rintro n ⟨⟩
    decide
  have same := (replay_iff emptyDocumentReader { taskId := none, maxScan := some 5 }
    [[], emptyObject] positive).mpr fun body member => fit body (taken_isPrefix.subset member)
  exact same.trans (by rfl)

/-- A list before an object: the replay raises, where the reference passes it over. -/
theorem list_body_ends_the_replay :
    emptyDocumentReader.replay { taskId := none, maxScan := some 5 } [emptyList, emptyObject] =
        ⟨1, .error ("AttributeError", "'list' object has no attribute 'items'")⟩ ∧
      emptyDocumentReader.replay { taskId := none, maxScan := some 5 } [emptyList, emptyObject] ≠
        emptyDocumentReader.reference { taskId := none, maxScan := some 5 }
          [emptyList, emptyObject] := by
  refine ⟨by rfl, fun same => ?_⟩
  have : 1 = 2 := congrArg Replayed.acked same
  cases this

end StreamHistoryReader

end Relayna.Status
