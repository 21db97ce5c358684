import Relayna.Consumer.Effects
import Relayna.Foundation.Interpret
import Relayna.Storage.Keys

/-!
# `RedisWorkflowContractStore`

The dedup key of a message is a Redis key that is set if it is not there, and the in-flight entry
a field of a hash. The methods are programs over the Redis commands they await; with each method
in the place of the operation that a consumer awaits, a consumer is a program over commands.
-/
namespace Relayna.Consumer

open Python Contracts Await Storage

inductive RedisCommand where
  | setNx (key : String) (ex : Option Int)
  | delete (key : String)
  | hset (key field value : String)
  | expire (key : String) (seconds : Int)
  | hdel (key field : String)

/-- What a consumer with such a store awaits: a command or an operation of its own. -/
inductive StoreOp where
  | redis (command : RedisCommand)
  | other (op : Op)

/-- `SET NX` says whether the key has been set. -/
def StoreOp.Reply : StoreOp → Type
  | .redis (.setNx ..) => Bool
  | .redis _ => Unit
  | .other op => op.Reply

abbrev storeInterface : Interface := ⟨StoreOp, StoreOp.Reply, Exc⟩

abbrev StoreEvent := Await.Event storeInterface

abbrev StoreProc (α : Type) := Await.Proc storeInterface α

def command (op : RedisCommand) : StoreProc (StoreOp.Reply (.redis op)) :=
  Proc.perform (I := storeInterface) (.redis op)

/-- The text of the in-flight entry has separators of its own. -/
structure RedisWorkflowContractStore where
  keyPrefix : String
  ttlSeconds : Option Int
  text : Text
  dumps : Value → String

/-- `{field: payload.get(field) for field in dedup_key_fields}`. -/
def dedupFields (scope : DedupScope) : Value :=
  .dict (scope.dedupKeyFields.foldl
    (fun fields field => Fields.set fields field ((scope.payload.lookup field).getD .none)) [])

namespace RedisWorkflowContractStore

variable (s : RedisWorkflowContractStore) (scope : DedupScope)

def buildDedupSignature : String :=
  s.text.sha256 (s.text.dumps (.dict
    [("task_id", .str scope.taskId), ("action", (scope.action.map .str).getD .none),
      ("fields", dedupFields scope)]))

def slot : String := "workflow-contract:" ++ scope.stage ++ ":" ++ scope.taskId

def dedupKey : String :=
  redisKey s.text s.keyPrefix (slot scope)
    ["workflow", "contract", scope.stage, "dedup", scope.taskId, s.buildDedupSignature scope]

def inflightKey : String :=
  redisKey s.text s.keyPrefix (slot scope)
    ["workflow", "contract", scope.stage, "inflight", scope.taskId]

def inflightValue : String :=
  s.dumps (.dict
    [("task_id", .str scope.taskId), ("stage", .str scope.stage),
      ("action", (scope.action.map .str).getD .none),
      ("dedup_key_fields", .list (scope.dedupKeyFields.map .str)),
      ("payload", dedupFields scope)])

def acquireDedup : StoreProc Bool := command (.setNx (s.dedupKey scope) s.ttlSeconds)

def releaseDedup : StoreProc Unit := command (.delete (s.dedupKey scope))

def markInflight : StoreProc Unit := do
  command (.hset (s.inflightKey scope) (s.buildDedupSignature scope) (s.inflightValue scope))
  match s.ttlSeconds with
  | none => pure ()
  | some seconds => command (.expire (s.inflightKey scope) seconds)

def clearInflight : StoreProc Unit :=
  command (.hdel (s.inflightKey scope) (s.buildDedupSignature scope))

/-- The methods in the place of the operations. -/
def serve : (op : Op) → StoreProc (Except Exc op.Reply)
  | .acquireDedup scope => (s.acquireDedup scope).attempt
  | .releaseDedup scope => (s.releaseDedup scope).attempt
  | .markInflight scope => (s.markInflight scope).attempt
  | .clearInflight scope => (s.clearInflight scope).attempt
  | op => (Proc.perform (I := storeInterface) (.other op)).attempt

end RedisWorkflowContractStore

/-- The operations that the store serves. -/
def Op.onContract : Op → Bool
  | .acquireDedup _ | .releaseDedup _ | .markInflight _ | .clearInflight _ => true
  | _ => false

section Serve

variable {s : RedisWorkflowContractStore} {scope : DedupScope} {es : List StoreEvent}

theorem serve_other {op : Op} (h : op.onContract = false) :
    s.serve op = (Proc.perform (I := storeInterface) (.other op)).attempt := by
  cases op <;> first | rfl | simp [Op.onContract] at h

theorem serve_total (op : Op) (e : Exc) : ¬Run (s.serve op) es (.error e) := by
  intro run
  have never : ∀ {α : Type} (x : StoreProc α), ¬Run x.attempt es (.error e) := by
    intro α x run
    obtain ⟨r, hr, -⟩ := run_attempt run
    cases hr
  by_cases h : op.onContract = true
  · cases op with
    | acquireDedup | releaseDedup | markInflight | clearInflight => exact never _ run
    | _ => simp [Op.onContract] at h
  · rw [serve_other (by simpa using h)] at run
    exact never _ run

theorem run_serve_command {op : StoreOp} {answer : Except Exc op.Reply}
    (run : Run (Proc.perform (I := storeInterface) op).attempt es (.ok answer)) :
    es = [⟨op, answer⟩] := by
  obtain ⟨r, same, hr⟩ := run_attempt run
  obtain rfl := Except.ok.inj same
  exact run_perform_iff.mp hr

/-- The entry has been written where the second command fails, and not where the first does. -/
theorem run_serve_markInflight {answer : Except Exc Unit}
    (run : Run (s.serve (.markInflight scope)) es (.ok answer)) :
    (∃ exc, answer = .error exc ∧ es = [⟨.redis (.hset (s.inflightKey scope)
      (s.buildDedupSignature scope) (s.inflightValue scope)), .error exc⟩]) ∨
    ∃ done : List StoreEvent, es = ⟨.redis (.hset (s.inflightKey scope)
        (s.buildDedupSignature scope) (s.inflightValue scope)), .ok ()⟩ :: done ∧
      (answer = .ok () ∧ (∀ e ∈ done, ∃ key seconds, e = ⟨.redis (.expire key seconds), .ok ()⟩) ∨
        ∃ exc key seconds, answer = .error exc ∧
          done = [⟨.redis (.expire key seconds), .error exc⟩]) := by
  obtain ⟨r, same, hr⟩ := run_attempt run
  obtain rfl := Except.ok.inj same
  unfold RedisWorkflowContractStore.markInflight at hr
  obtain ⟨exc, rfl, hx⟩ | ⟨a, first, rest, rfl, hx, hf⟩ := run_bind hr
  · exact Or.inl ⟨exc, rfl, run_perform_iff.mp hx⟩
  · obtain rfl := run_perform_iff.mp hx
    refine Or.inr ⟨rest, rfl, ?_⟩
    cases ttl : s.ttlSeconds with
    | none =>
      rw [ttl] at hf
      obtain ⟨rfl, rfl⟩ := run_pure_iff.mp hf
      exact Or.inl ⟨rfl, by simp⟩
    | some seconds =>
      rw [ttl] at hf
      obtain rfl := run_perform_iff.mp hf
      cases answer with
      | ok a => exact Or.inl ⟨rfl, fun e he => ⟨_, _, List.mem_singleton.mp he⟩⟩
      | error exc => exact Or.inr ⟨exc, _, _, rfl, rfl⟩

end Serve

end Relayna.Consumer
