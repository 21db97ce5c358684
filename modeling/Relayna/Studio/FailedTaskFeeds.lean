import Mathlib.Data.List.MinMax
import Mathlib.Data.Prod.Lex
import Mathlib.Data.String.Basic
import Relayna.Contracts.Transport

/-!
# The failed tasks of all services, page by page

`list_failed_tasks` of `StudioFederationService`, without a `service_id`. Every service has a feed
of failed tasks that is read in pages. An answer merges the feeds by the time of the failures, and
its cursor holds a position in each of them: the cursor of a page of the feed and the number of
items of that page that were returned already.

`up` is what `_request_json` gives for the failed tasks of a service from a cursor on; the filters
of a request are passed through and do not change along a run. `json` with `urlsafe_b64encode` is a
parameter. Fetches of different services touch different keys, so `gather` is a fold.
-/
namespace Relayna.Studio.FailedTaskFeeds

open Python Contracts

abbrev Item := Fields Value

/-- A registered service. `taskOf` is the id of an item's task, as `_payload_value` finds it by the
capability document or else its correlation, and the dump of the reference to that task. -/
structure Service where
  serviceId : String
  name : String
  disabled : Bool := false
  taskOf : Item → Option (String × Value) := fun _ => none

/-- The payload of `/failed-tasks`. -/
structure Payload where
  items : List Value
  nextCursor : Option String

structure StudioFederationError where
  statusCode : Nat
  detail : String
  code : String
  serviceId : Option String := none
  retryable : Bool := false
  deriving DecidableEq, Repr

/-- What comes of a request: a payload, an error that is caught, or no answer in 10 seconds. -/
inductive Reply
  | payload (p : Payload)
  | error (e : StudioFederationError)
  | timeout

abbrev Upstream := String → Option String → Reply

/-- How far the feed of a service was returned. -/
structure Position where
  cursor : Option String := none
  skip : Nat := 0
  done : Bool := false
  deriving DecidableEq, Repr

/-- The position at the start of the page that follows, where there is another one. -/
def Position.following (p : Position) : Option String → Option Position
  | some c => if c ≠ "" ∧ some c ≠ p.cursor then some { cursor := some c } else none
  | none => none

/-- The position behind the last item of a page. -/
def Position.advance (p : Position) (next : Option String) : Position :=
  (p.following next).getD { p with done := true }

/-! ## Cursors -/

/-- `base64.urlsafe_b64encode(json.dumps(value))` and back: `loads` as `json.loads` reads bytes,
`loadsUtf8` after they were decoded. -/
structure Codec where
  encode : Value → String
  loads : String → Option Value
  loadsUtf8 : String → Option Value

def Position.value (p : Position) : Value :=
  .dict ([("cursor", p.cursor.elim .none .str), ("skip", .int p.skip)] ++
    if p.done then [("done", .bool true)] else [])

def cursorValue (positions : Fields Position) : Value :=
  .dict [("version", .int 2), ("positions", .dict (positions.map fun p => (p.1, p.2.value)))]

/-- `isinstance(value.get("skip", 0), int)`, and not negative. -/
def skipOf (v : Value) : Option Nat :=
  match v.get "skip" with
  | none => some 0
  | some (.int i) => if i < 0 then none else some i.toNat
  | some (.bool b) => some b.toNat
  | some _ => none

def cursorOf (v : Value) : Option (Option String) :=
  match v.get "cursor" with
  | none | some .none => some none
  | some (.str c) => some (some c)
  | some _ => none

/-- A position of a cursor. One without `skip`, which no answer holds, is read as 0 here and is a
`KeyError` once the service is fetched in the source. -/
def positionOf (v : Value) : Option Position :=
  match v with
  | .dict _ => do
    let skip ← skipOf v
    let cursor ← cursorOf v
    return { cursor, skip, done := (v.get "done").any Value.truthy }
  | _ => none

/-- `_decode_failed_task_cursor`. -/
def Codec.decodeFailedTaskCursor (codec : Codec) (cursor : String) : Option Nat :=
  match codec.loadsUtf8 cursor with
  | some (.dict payload) =>
    match payload.lookup "offset" with
    | some (.str offset) =>
      match intOfString offset with
      | some i => if i < 0 then none else some i.toNat
      | none => none
    | _ => none
  | _ => none

/-- `value == 2`. -/
def isTwo : Value → Bool
  | .int i => i = 2
  | .float (.finite x) =>
    if 0 ≤ x.exponent then x.mantissa * 2 ^ x.exponent.toNat = 2
    else x.mantissa = 2 * 2 ^ (-x.exponent).toNat
  | _ => false

/-- The positions of a cursor, or the offset of an older one. -/
def Codec.decodeCursor (codec : Codec) (cursor : Option String) : Option (Fields Position × Nat) :=
  match cursor with
  | none => some ([], 0)
  | some cursor =>
    if cursor = "" then some ([], 0)
    else match codec.loads cursor with
      | none => none
      | some decoded =>
        if (decoded.get "version").any isTwo then
          match decoded.get "positions" with
          | some (.dict values) =>
            (values.mapM fun v => (positionOf v.2).map (v.1, ·)).map (·, 0)
          | _ => none
        else (codec.decodeFailedTaskCursor cursor).map ([], ·)

/-! ## One call -/

/-- `_normalize_failed_task_payload`. -/
def Service.normalizeFailedTaskPayload (service : Service) (payload : Item) : Item :=
  let name := match payload.lookup "service_name" with
    | some v => if v.truthy then v else .str service.name
    | none => .str service.name
  let normalized :=
    Fields.set (Fields.set payload "service_id" (.str service.serviceId)) "service_name" name
  match service.taskOf payload with
  | none => normalized
  | some (taskId, taskRef) =>
    Fields.set (Fields.set normalized "task_id" (.str taskId)) "task_ref" taskRef

/-- The items of a page that are dictionaries, as `_fetch_failed_tasks` returns them. -/
def Service.itemsOf (service : Service) (p : Payload) : List Item :=
  p.items.filterMap fun
    | .dict item => some (service.normalizeFailedTaskPayload item)
    | _ => none

/-- `str(item.get(key) or "")`. -/
def itemText (text : Text) (item : Item) (key : String) : String :=
  match item.lookup key with
  | some v => if v.truthy then text.str v else ""
  | none => ""

/-- The local variables of a call. -/
structure Call where
  positions : Fields Position
  legacyOffset : Nat
  pages : Fields (List Item) := []
  following : Fields (Option String) := []
  errors : List StudioFederationError := []
  scanned : List String := []
  unavailable : List String := []
  page : List Item := []

namespace Call

variable (text : Text) (up : Upstream)

def position (c : Call) (sid : String) : Position := (c.positions.lookup sid).getD {}

def pageOf (c : Call) (sid : String) : List Item := (c.pages.lookup sid).getD []

def setPosition (c : Call) (sid : String) (p : Position) : Call :=
  { c with positions := Fields.set c.positions sid p }

def fail (c : Call) (sid : String) (e : StudioFederationError) : Call :=
  { c with errors := c.errors ++ [e], unavailable := c.unavailable ++ [sid] }

/-- The page that was fetched. -/
def load (c : Call) (sid : String) (items : List Item) (next : Option String) : Call :=
  { c with
    scanned := c.scanned ++ [sid]
    pages := Fields.set c.pages sid items
    following := Fields.set c.following sid next }

def fetchPage (c : Call) (service : Service) : Call :=
  let sid := service.serviceId
  let position := c.position sid
  -- `positions.setdefault`
  let c := c.setPosition sid position
  if position.done then c
  else match up sid position.cursor with
    | .error e => c.fail sid e
    | .timeout => c.fail sid
        { statusCode := 504, detail := "Service read timed out.", code := "upstream_timeout",
          serviceId := some sid, retryable := true }
    | .payload p =>
      let items := (service.itemsOf p).drop position.skip
      let c := c.load sid items p.nextCursor
      -- Filtered upstream pages can be empty but still have continuation.
      if items.isEmpty then c.setPosition sid (position.advance p.nextCursor) else c

/-- The first item of every page that has one. -/
def candidates (c : Call) : List (String × Item) :=
  c.pages.filterMap fun entry => entry.2.head?.map (entry.1, ·)

def sortKey (candidate : String × Item) : String ×ₗ String ×ₗ String :=
  toLex (itemText text candidate.2 "failed_at",
    toLex (candidate.1, itemText text candidate.2 "failure_id"))

/-- The item leaves its page, and is returned unless it belongs to the old offset. -/
def emit (c : Call) (sid : String) (item : Item) : Call :=
  let p := c.position sid
  let c := { c with pages := Fields.set c.pages sid (c.pageOf sid).tail }
  let c := c.setPosition sid { p with skip := p.skip + 1 }
  if c.legacyOffset ≠ 0 then { c with legacyOffset := c.legacyOffset - 1 }
  else { c with page := c.page ++ [item] }

/-- What follows when the last item of a page has left it. -/
def turnPage (limit : Nat) (services : List Service) (c : Call) (sid : String) : Call :=
  if (c.pageOf sid).isEmpty then
    match (c.position sid).following ((c.following.lookup sid).getD none) with
    | some p =>
      let c := c.setPosition sid p
      match services.find? (·.serviceId = sid) with
      | some service => if c.page.length < limit then c.fetchPage up service else c
      | none => c
    | none => c.setPosition sid { c.position sid with done := true }
  else c

/-- A round of the loop, unless no page has an item. -/
def round (limit : Nat) (services : List Service) (c : Call) : Option Call :=
  (c.candidates.argmax (sortKey text)).map fun candidate =>
    turnPage up limit services (c.emit candidate.1 candidate.2) candidate.1

/-- The loop. A round shortens the old offset or lengthens the page, so it ends after at most
`legacyOffset + limit` rounds. -/
def merge (limit : Nat) (services : List Service) : Nat → Call → Call
  | 0, c => c
  | rounds + 1, c =>
    if c.page.length < limit then
      match c.round text up limit services with
      | some c => merge limit services rounds c
      | none => c
    else c

def hasMore (services : List Service) (c : Call) : Bool :=
  c.positions.any fun entry =>
    services.any (·.serviceId = entry.1) && !entry.2.done && !c.unavailable.contains entry.1

end Call

structure Answer where
  items : List Item
  nextCursor : Option String
  errors : List StudioFederationError
  scannedServices : List String

/-- The services as they are, the requests and the text of values. -/
structure Federation where
  text : Text
  codec : Codec
  services : List Service

namespace Federation

def enabled (f : Federation) : List Service := f.services.filter (!·.disabled)

/-- `list_failed_tasks` once the cursor is read. -/
def run (f : Federation) (up : Upstream) (limit : Nat) (positions : Fields Position)
    (legacyOffset : Nat) : Call :=
  let start : Call := { positions, legacyOffset }
  (f.enabled.foldl (Call.fetchPage up) start).merge f.text up limit f.enabled (legacyOffset + limit)

def answer (f : Federation) (c : Call) : Answer where
  items := c.page
  nextCursor :=
    if c.hasMore f.enabled then some (f.codec.encode (cursorValue c.positions)) else none
  errors := c.errors
  scannedServices := c.scanned.dedup.mergeSort (· ≤ ·)

def listFailedTasks (f : Federation) (up : Upstream) (cursor : Option String) (limit : Nat) :
    Except StudioFederationError Answer :=
  match f.codec.decodeCursor cursor with
  | none => .error { statusCode := 400, detail := "Invalid cursor.", code := "invalid_cursor" }
  | some (positions, legacyOffset) => .ok (f.answer (f.run up limit positions legacyOffset))

end Federation

end Relayna.Studio.FailedTaskFeeds
