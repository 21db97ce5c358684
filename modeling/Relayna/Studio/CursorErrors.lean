import Relayna.Studio.FailedTaskFeeds

/-!
# Cursors that were made by hand

`list_failed_tasks` again, with its positions as the dictionaries that a cursor holds: what it does
with an entry that no answer wrote, and which exceptions leave it. Whatever is read from a cursor
is checked by one condition; each later use of an entry has its own way to fail.

A text that JSON gives may have lone surrogates or be too long for a URL that starts with the base
URL of a service, and no request of that service can be made with it; `unsendable` is the exception
of the HTTP client for a service and such a text. An upstream is well formed when its cursors can be
sent back to it. Numbers may have any number of digits here.
-/
namespace Relayna.Studio.CursorErrors

open Python Contracts FailedTaskFeeds

/-! ## Entries -/

/-- `isinstance(value, int)`. -/
def intOf : Value → Option Int
  | .int i => some i
  | .bool b => some b.toNat
  | _ => none

/-- The condition on the entries of a cursor. -/
def validPosition (v : Value) : Bool :=
  match v with
  | .dict _ =>
    (v.get "skip").all (fun skip => (intOf skip).any (0 ≤ ·)) &&
      (v.get "cursor").all fun cursor => match cursor with
        | .none | .str _ => true
        | _ => false
  | _ => false

/-- `position.get("cursor")` of an entry that is valid. -/
def cursorText (v : Value) : Option String :=
  match v.get "cursor" with
  | some (.str text) => some text
  | _ => none

def isDone (v : Value) : Bool := (v.get "done").any Value.truthy

/-- `position["skip"]`; `none` is a `KeyError`. -/
def skipNumber (v : Value) : Option Nat :=
  (v.get "skip").bind fun skip => (intOf skip).map Int.toNat

def fresh (cursor : Option String) : Value :=
  .dict [("cursor", cursor.elim .none .str), ("skip", .int 0)]

/-- `position[key] = value`. -/
def setField (v : Value) (key : String) (value : Value) : Value :=
  match v with
  | .dict fields => .dict (Fields.set fields key value)
  | v => v

/-- The entry at the start of the page that follows, where there is another one. -/
def followingPosition (v : Value) : Option String → Option Value
  | some next => if next ≠ "" ∧ some next ≠ cursorText v then some (fresh (some next)) else none
  | none => none

def advance (v : Value) (next : Option String) : Value :=
  (followingPosition v next).getD (setField v "done" (.bool true))

/-! ## Cursors -/

inductive LoadsError
  | valueError
  | recursionError
  deriving DecidableEq, Repr

/-- The exceptions that leave `list_failed_tasks`. -/
inductive Escape
  | recursionError
  | keyError
  | unicodeEncodeError
  | invalidURL
  deriving DecidableEq, Repr

inductive Raised
  | federation (e : StudioFederationError)
  | escaped (e : Escape)
  deriving DecidableEq, Repr

def cursorValue (positions : Fields Value) : Value :=
  .dict [("version", .int 2), ("positions", .dict positions)]

/-- `json` and `base64`. `loads` reads bytes, `loadsUtf8` reads them once they are decoded. An
entry is `Writable` when `json` writes and reads it, as it does with all that it has read, and with
an entry whose number or flag is changed. -/
structure JsonCodec where
  encode : Value → String
  loads : String → Except LoadsError Value
  loadsUtf8 : String → Except LoadsError Value
  unsendable : String → String → Option Escape
  Writable : Value → Prop
  writable_read : ∀ {text decoded positions}, loads text = .ok decoded →
    decoded.get "positions" = some (.dict positions) →
      (positions.map Prod.fst).Nodup ∧ ∀ entry ∈ positions, Writable entry.2
  writable_fresh : ∀ cursor, Writable (fresh cursor)
  writable_skip : ∀ {v}, Writable v → ∀ n : Nat, Writable (setField v "skip" (.int n))
  writable_done : ∀ {v}, Writable v → Writable (setField v "done" (.bool true))
  loads_encode : ∀ {positions : Fields Value}, (positions.map Prod.fst).Nodup →
    (∀ entry ∈ positions, Writable entry.2) →
      loads (encode (cursorValue positions)) = .ok (cursorValue positions)
  encode_ne : ∀ positions, encode (cursorValue positions) ≠ ""

def invalidCursor : StudioFederationError where
  statusCode := 400
  detail := "Invalid cursor."
  code := "invalid_cursor"

def LoadsError.raised : LoadsError → Raised
  | .valueError => .federation invalidCursor
  | .recursionError => .escaped .recursionError

namespace JsonCodec

variable (codec : JsonCodec)

/-- `_decode_failed_task_cursor`, whose `ValueError` becomes the error of the cursor. -/
def decodeFailedTaskCursor (cursor : String) : Except Raised Nat :=
  match codec.loadsUtf8 cursor with
  | .error e => .error e.raised
  | .ok payload =>
    match (payload.get "offset").bind fun offset => match offset with
      | .str text => intOfString text
      | _ => none with
    | some i => if i < 0 then .error (.federation invalidCursor) else .ok i.toNat
    | none => .error (.federation invalidCursor)

/-- The positions of a cursor, or the offset of an older one. -/
def decodeCursor (cursor : Option String) : Except Raised (Fields Value × Nat) :=
  match cursor.filter (· ≠ "") with
  | none => .ok ([], 0)
  | some text =>
    match codec.loads text with
    | .error e => .error e.raised
    | .ok decoded =>
      if (decoded.get "version").any isTwo then
        match decoded.get "positions" with
        | some (.dict positions) =>
          if positions.all fun entry => validPosition entry.2 then .ok (positions, 0)
          else .error (.federation invalidCursor)
        | _ => .error (.federation invalidCursor)
      else (codec.decodeFailedTaskCursor text).map ([], ·)

end JsonCodec

/-! ## One call -/

/-- The local variables of a call. -/
structure Call where
  positions : Fields Value
  legacyOffset : Nat
  pages : Fields (List Item) := []
  following : Fields (Option String) := []
  errors : List StudioFederationError := []
  scanned : List String := []
  unavailable : List String := []
  page : List Item := []

/-- The services as they are. `refused` is the error of a service that no request is sent to. -/
structure Federation where
  text : Text
  codec : JsonCodec
  services : List Service
  distinct : (services.map Service.serviceId).Nodup
  refused : String → Option StudioFederationError
  up : Upstream
  /-- The upstream is well formed. -/
  sendable_next : ∀ {sid cursor payload}, up sid cursor = .payload payload →
    ∀ next ∈ payload.nextCursor, codec.unsendable sid next = none

namespace Call

def pageOf (c : Call) (sid : String) : List Item := (c.pages.lookup sid).getD []

/-- The entry of a service, which is made when there is none. -/
def entryOf (c : Call) (sid : String) : Value := (c.positions.lookup sid).getD (fresh none)

def setPosition (c : Call) (sid : String) (v : Value) : Call :=
  { c with positions := Fields.set c.positions sid v }

def fail (c : Call) (sid : String) (e : StudioFederationError) : Call :=
  { c with errors := c.errors ++ [e], unavailable := c.unavailable ++ [sid] }

def load (c : Call) (sid : String) (items : List Item) (next : Option String) : Call :=
  { c with
    scanned := c.scanned ++ [sid]
    pages := Fields.set c.pages sid items
    following := Fields.set c.following sid next }

/-- The first item of every page that has one. -/
def candidates (c : Call) : List (String × Item) :=
  c.pages.filterMap fun entry => entry.2.head?.map (entry.1, ·)

/-- The item leaves its page, and is returned unless it belongs to the old offset. -/
def emit (c : Call) (sid : String) (item : Item) : Except Escape Call :=
  match (c.positions.lookup sid).bind fun v => (skipNumber v).map (v, ·) with
  | none => .error .keyError
  | some (v, skip) =>
    let c := { c with pages := Fields.set c.pages sid (c.pageOf sid).tail }
    let c := c.setPosition sid (setField v "skip" (.int (skip + 1 : Nat)))
    .ok (if c.legacyOffset ≠ 0 then { c with legacyOffset := c.legacyOffset - 1 }
      else { c with page := c.page ++ [item] })

end Call

namespace Federation

variable (f : Federation)

def enabled : List Service := f.services.filter (!·.disabled)

def fetchPage (c : Call) (service : Service) : Except Escape Call :=
  let sid := service.serviceId
  let position := c.entryOf sid
  -- `positions.setdefault`
  let c := c.setPosition sid position
  if isDone position then .ok c
  else match f.refused sid with
    | some e => .ok (c.fail sid e)
    | none =>
      match (cursorText position).bind (f.codec.unsendable sid) with
      | some e => .error e
      | none =>
        match f.up sid (cursorText position) with
        | .error e => .ok (c.fail sid e)
        | .timeout => .ok (c.fail sid
            { statusCode := 504, detail := "Service read timed out.", code := "upstream_timeout",
              serviceId := some sid, retryable := true })
        | .payload p =>
          match skipNumber position with
          | none => .error .keyError
          | some skip =>
            let items := (service.itemsOf p).drop skip
            let c := c.load sid items p.nextCursor
            -- Filtered upstream pages can be empty but still have continuation.
            .ok (if items.isEmpty then c.setPosition sid (advance position p.nextCursor) else c)

/-- What follows when the last item of a page has left it. -/
def turnPage (limit : Nat) (c : Call) (sid : String) : Except Escape Call :=
  if (c.pageOf sid).isEmpty then
    let position := c.entryOf sid
    match followingPosition position ((c.following.lookup sid).getD none) with
    | some v =>
      let c := c.setPosition sid v
      if c.page.length < limit then
        match f.enabled.find? (·.serviceId = sid) with
        | some service => f.fetchPage c service
        | none => .error .keyError
      else .ok c
    | none => .ok (c.setPosition sid (setField position "done" (.bool true)))
  else .ok c

/-- A round of the loop, unless no page has an item. -/
def round (limit : Nat) (c : Call) : Except Escape (Option Call) :=
  match c.candidates.argmax (FailedTaskFeeds.Call.sortKey f.text) with
  | none => .ok none
  | some candidate => do
    let c ← c.emit candidate.1 candidate.2
    return some (← f.turnPage limit c candidate.1)

/-- The loop. A round shortens the old offset or lengthens the page. -/
def merge (limit : Nat) : Nat → Call → Except Escape Call
  | 0, c => .ok c
  | rounds + 1, c =>
    if c.page.length < limit then do
      match ← f.round limit c with
      | some c => merge limit rounds c
      | none => return c
    else .ok c

def hasMore (c : Call) : Bool :=
  c.positions.any fun entry =>
    f.enabled.any (·.serviceId = entry.1) && !isDone entry.2 && !c.unavailable.contains entry.1

/-- `list_failed_tasks` once the cursor is read. -/
def run (limit : Nat) (positions : Fields Value) (legacyOffset : Nat) : Except Escape Call := do
  let c ← f.enabled.foldlM f.fetchPage { positions, legacyOffset }
  f.merge limit (legacyOffset + limit) c

def answer (c : Call) : Answer where
  items := c.page
  nextCursor := if f.hasMore c then some (f.codec.encode (cursorValue c.positions)) else none
  errors := c.errors
  scannedServices := c.scanned.dedup.mergeSort (· ≤ ·)

def listFailedTasks (cursor : Option String) (limit : Nat) : Except Raised Answer := do
  let (positions, legacyOffset) ← f.codec.decodeCursor cursor
  let c ← (f.run limit positions legacyOffset).mapError .escaped
  return f.answer c

end Federation

end Relayna.Studio.CursorErrors
