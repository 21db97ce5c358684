import Mathlib.Data.Finset.Card
import Relayna.Foundation.Keyed
import Relayna.Foundation.Names
import Relayna.Foundation.Transition
import Relayna.Studio.MemberRaces

/-!
# The two stores of the members

The same calls, one after the other, on the Redis store and on the PostgreSQL store. The Redis
store looks a member up under the lower-case spelling of any id; the PostgreSQL store does so in
`get_member` and not in `update_member`. Both compare the id with the actor's as it is spelled.

`Plain` says which calls the two stores answer alike.
-/
namespace Relayna.Studio.AuthStores

open Members Transition

inductive AuthError
  /-- `KeyError`. -/
  | notFound (userId : String)
  /-- `ValueError`: an administrator cannot demote or block themselves. -/
  | demotesSelf
  /-- `ValueError`: at least one active administrator must remain. -/
  | lastAdmin
  /-- The database refuses a text. -/
  | data
  deriving DecidableEq, Repr

inductive Call where
  | upsertLogin (claims : Claims)
  | getMember (userId : String)
  | listMembers
  | updateMember (q : Request)

inductive Answer where
  | member (m : Option StudioMember)
  | members (l : List StudioMember)
  | raised (error : AuthError)

variable (c : StudioEntraConfig)

/-! ## Redis -/

/-- The members, under `user_id.lower()`, and the sets `members` and `active-admins`. -/
structure StudioAuthStore where
  values : String → Option StudioMember := fun _ => none
  members : List String := []
  activeAdmins : Finset String := ∅

namespace StudioAuthStore

variable (s : StudioAuthStore)

def upsertLogin (claims : Claims) (now : Int) : Answer × StudioAuthStore :=
  let key := c.lower (claims.userId c)
  let m := pipelined c claims (s.values key) now
  (.member (some m),
    { values := Function.update s.values key (some m)
      members :=
        if claims.userId c ∈ s.members then s.members else s.members ++ [claims.userId c]
      activeAdmins :=
        if m.activeAdmin then insert (claims.userId c) s.activeAdmins else s.activeAdmins })

def getMember (userId : String) : Option StudioMember := s.values (c.lower userId)

def byEmail (a b : StudioMember) : Bool :=
  a.email < b.email ∨ a.email = b.email ∧ a.objectId ≤ b.objectId

def listMembers : List StudioMember :=
  ((s.members.mergeSort fun a b => a ≤ b).filterMap fun id => s.values (c.lower id)).mergeSort
    byEmail

/-- Nothing comes between the `GET` and the script, which finds the member that was read. -/
def updateMember (q : Request) (now : Int) : Answer × StudioAuthStore :=
  match s.getMember c q.userId with
  | none => (.raised (.notFound q.userId), s)
  | some current =>
    let next := current.updated q.update now
    if q.demotesSelf next then (.raised .demotesSelf, s)
    else if current.activeAdmin ∧ ¬ next.activeAdmin ∧ s.activeAdmins.card ≤ 1 then
      (.raised .lastAdmin, s)
    else (.member (some next),
      { s with
        values := Function.update s.values (c.lower q.userId) (some next)
        activeAdmins :=
          if next.activeAdmin then insert next.userId s.activeAdmins
          else s.activeAdmins.erase next.userId })

def call (now : Int) : Call → Answer × StudioAuthStore
  | .upsertLogin claims => s.upsertLogin c claims now
  | .getMember userId => (.member (s.getMember c userId), s)
  | .listMembers => (.members (s.listMembers c), s)
  | .updateMember q => s.updateMember c q now

end StudioAuthStore

/-! ## PostgreSQL -/

/-- A text can be sent to the database. -/
def sendable (text : String) : Bool := '\x00' ∉ text.toList

/-- What `VARCHAR(n)` keeps of a text: spaces beyond its length are cut, anything else there is
an error. -/
def varchar (n : Nat) (text : String) : Option String :=
  if ¬ sendable text then none
  else if (text.toList.drop n).all (· = ' ') then some (String.ofList (text.toList.take n))
  else none

/-- The row that is stored for a member. -/
def row (m : StudioMember) : Option StudioMember := do
  let userId ← varchar 600 m.userId
  let tenantId ← varchar 255 m.tenantId
  let objectId ← varchar 255 m.objectId
  let email ← varchar 320 m.email
  let displayName ← varchar 255 m.displayName
  return { m with userId, tenantId, objectId, email, displayName }

structure HybridStudioAuthStore where
  rows : List StudioMember := []

namespace HybridStudioAuthStore

variable (s : HybridStudioAuthStore)

/-- `SELECT … WHERE user_id = …`. -/
def find (userId : String) : Option StudioMember :=
  Keyed.get? StudioMember.userId userId s.rows

/-- `INSERT … ON CONFLICT (user_id) DO UPDATE`. -/
def put (m : StudioMember) : HybridStudioAuthStore := ⟨Keyed.put StudioMember.userId m s.rows⟩

def upsertLogin (claims : Claims) (now : Int) : Answer × HybridStudioAuthStore :=
  let m := match s.find (claims.userId c) with
    | some existing => Members.upsertLogin c claims existing now
    | none => firstLogin c claims now
  match row m with
  | some stored => (.member (some m), s.put stored)
  | none => (.raised .data, s)

def getMember (userId : String) : Answer :=
  if sendable (c.lower userId) then .member (s.find (c.lower userId)) else .raised .data

/-- `ORDER BY email, object_id`, in the order of the database. -/
def listMembers (collate : String → String → Bool) : List StudioMember :=
  s.rows.mergeSort fun a b =>
    collate a.email b.email && (!collate b.email a.email || collate a.objectId b.objectId)

/-- The new role and status are written, with an entry of the audit log. -/
def updateMember (q : Request) (now : Int) : Answer × HybridStudioAuthStore :=
  if ¬ sendable q.userId then (.raised .data, s)
  else match s.find q.userId with
  | none => (.raised (.notFound q.userId), s)
  | some current =>
    let next := current.updated q.update now
    if q.demotesSelf next then (.raised .demotesSelf, s)
    else if current.activeAdmin ∧ ¬ next.activeAdmin ∧ s.rows.countP (·.activeAdmin) ≤ 1 then
      (.raised .lastAdmin, s)
    else if (varchar 600 q.actorUserId).isNone then (.raised .data, s)
    else (.member (some next),
      ⟨Keyed.amend StudioMember.userId q.userId
        (fun old => { old with role := next.role, status := next.status, updatedAt := now })
          s.rows⟩)

def call (collate : String → String → Bool) (now : Int) : Call → Answer × HybridStudioAuthStore
  | .upsertLogin claims => s.upsertLogin c claims now
  | .getMember userId => (s.getMember c userId, s)
  | .listMembers => (.members (s.listMembers collate), s)
  | .updateMember q => s.updateMember q now

end HybridStudioAuthStore

/-! ## Both -/

structure Stores where
  redis : StudioAuthStore := {}
  hybrid : HybridStudioAuthStore := {}

structure Step where
  call : Call
  now : Int

variable (collate : String → String → Bool)

def next (s : Stores) (l : Step) : Stores where
  redis := (s.redis.call c l.now l.call).2
  hybrid := (s.hybrid.call c collate l.now l.call).2

def machine : Machine Stores Step := ⟨fun s l => some (next c collate s l)⟩

/-- A list of members is the same in any order. -/
def Answer.Same : Answer → Answer → Prop
  | .members l, .members l' => l.Perm l'
  | a, b => a = b

/-- The columns hold the texts of the member as they are. -/
def Fits (m : StudioMember) : Prop :=
  varchar 600 m.userId = some m.userId ∧ varchar 255 m.tenantId = some m.tenantId ∧
    varchar 255 m.objectId = some m.objectId ∧ varchar 320 m.email = some m.email ∧
      varchar 255 m.displayName = some m.displayName

/-- A login fits the columns, and the member with its user id is of its tenant. An update spells
the user id as it is stored, if it is, and is made by a member. -/
def Plain (s : Stores) (l : Step) : Prop :=
  match l.call with
  | .upsertLogin claims =>
    Fits (firstLogin c claims 0) ∧
      ∀ existing ∈ s.redis.values (claims.userId c), existing.tenantId = claims.tenantId c
  | .getMember userId => sendable (c.lower userId)
  | .listMembers => True
  | .updateMember q =>
    sendable q.userId ∧ (c.lower q.userId = q.userId ∨ s.redis.values (c.lower q.userId) = none) ∧
      (s.redis.values q.actorUserId).isSome

/-- The actor, if they are an active administrator or the member that is updated, is an active
administrator afterwards. -/
def Protects (q : Request) (before after : String → Option StudioMember) : Prop :=
  ((before q.actorUserId).any (·.activeAdmin) ∨ c.lower q.userId = q.actorUserId) →
    (after q.actorUserId).any (·.activeAdmin)

/-- The two stores hold the same members. -/
structure Agree (s : Stores) : Prop where
  values : ∀ key, s.redis.values key = s.hybrid.find key
  unique : (s.hybrid.rows.map StudioMember.userId).Nodup
  members : ∀ id, id ∈ s.redis.members ↔ (s.redis.values id).isSome
  nodup : s.redis.members.Nodup
  admins : ∀ id, id ∈ s.redis.activeAdmins ↔ (s.redis.values id).any (·.activeAdmin)
  ids : ∀ m ∈ s.hybrid.rows, m.userId = m.tenantId ++ ":" ++ m.objectId ∧
    c.lower m.userId = m.userId ∧ Fits m

variable {c} {collate}

/-! ## What the stores have in common -/

theorem row_of_fits {m : StudioMember} (h : Fits m) : row m = some m := by
  obtain ⟨userId, tenantId, objectId, email, displayName⟩ := h
  simp [row, userId, tenantId, objectId, email, displayName]

theorem Agree.of_find {s : Stores} (h : Agree c s) {key : String} {m : StudioMember}
    (found : s.redis.values key = some m) :
    m.userId = key ∧ m.userId = m.tenantId ++ ":" ++ m.objectId ∧ c.lower key = key ∧ Fits m := by
  rw [h.values] at found
  obtain rfl := Keyed.key_of_get? found
  obtain ⟨id, lower, fits⟩ := h.ids m (Keyed.mem_of_get? found)
  exact ⟨rfl, id, lower, fits⟩

/-- `SCARD active-admins` is the count of the active administrators. -/
theorem Agree.card {s : Stores} (h : Agree c s) :
    s.redis.activeAdmins.card = s.hybrid.rows.countP (·.activeAdmin) := by
  have admins : s.redis.activeAdmins =
      ((s.hybrid.rows.filter (·.activeAdmin)).map StudioMember.userId).toFinset := by
    ext id
    rw [h.admins, h.values, Option.any_eq_true, List.mem_toFinset, List.mem_map]
    constructor
    · rintro ⟨m, found, is⟩
      exact ⟨m, List.mem_filter.mpr ⟨Keyed.mem_of_get? found, is⟩, Keyed.key_of_get? found⟩
    · rintro ⟨m, mem, rfl⟩
      obtain ⟨mem, is⟩ := List.mem_filter.mp mem
      exact ⟨m, Keyed.get?_of_mem h.unique mem, is⟩
  have nodup : ((s.hybrid.rows.filter (·.activeAdmin)).map StudioMember.userId).Nodup :=
    h.unique.sublist (List.filter_sublist.map _)
  rw [admins, List.toFinset_card_of_nodup nodup, List.length_map, List.countP_eq_length_filter]

theorem Agree.listed {s : Stores} (h : Agree c s) :
    (s.redis.listMembers c).Perm (s.hybrid.listMembers collate) := by
  have ids : s.redis.members.Perm (s.hybrid.rows.map StudioMember.userId) := by
    refine (List.perm_ext_iff_of_nodup h.nodup h.unique).mpr fun id => ?_
    rw [h.members, h.values, ← not_iff_not, Bool.not_eq_true, Option.isSome_eq_false_iff,
      Option.isNone_iff_eq_none]
    exact Keyed.get?_eq_none
  have found : (s.hybrid.rows.map StudioMember.userId).filterMap
      (fun id => s.redis.values (c.lower id)) = s.hybrid.rows := by
    rw [List.filterMap_map]
    have each : ∀ m ∈ s.hybrid.rows,
        ((fun id => s.redis.values (c.lower id)) ∘ StudioMember.userId) m = some m := by
      intro m mem
      rw [Function.comp_apply, (h.ids m mem).2.1, h.values]
      exact Keyed.get?_of_mem h.unique mem
    rw [List.filterMap_congr each, List.filterMap_some]
  have read : ((s.redis.members.mergeSort fun a b => a ≤ b).filterMap
      fun id => s.redis.values (c.lower id)).Perm s.hybrid.rows :=
    (((List.mergeSort_perm ..).trans ids).filterMap _).trans (.of_eq found)
  exact (List.mergeSort_perm ..).trans (read.trans (List.mergeSort_perm ..).symm)

/-- Both stores write one member. -/
theorem Agree.write {s t : Stores} {m : StudioMember} (h : Agree c s)
    (ok : m.userId = m.tenantId ++ ":" ++ m.objectId ∧ c.lower m.userId = m.userId ∧ Fits m)
    (values : t.redis.values = Function.update s.redis.values m.userId (some m))
    (find : ∀ key, t.hybrid.find key = if key = m.userId then some m else s.hybrid.find key)
    (unique : (t.hybrid.rows.map StudioMember.userId).Nodup)
    (rows : ∀ a ∈ t.hybrid.rows, a ∈ s.hybrid.rows ∨ a = m)
    (members : ∀ id, id ∈ t.redis.members ↔ id ∈ s.redis.members ∨ id = m.userId)
    (nodup : t.redis.members.Nodup)
    (admins : ∀ id, id ∈ t.redis.activeAdmins ↔
      id = m.userId ∧ m.activeAdmin ∨ id ≠ m.userId ∧ id ∈ s.redis.activeAdmins) : Agree c t := by
  have stored : ∀ key, t.redis.values key =
      if key = m.userId then some m else s.redis.values key := by
    intro key
    rw [values, Function.update_apply]
  refine ⟨fun key => ?_, unique, fun id => ?_, nodup, fun id => ?_, fun a ha => ?_⟩
  · rw [stored, find, h.values]
  · rw [members, stored, h.members]
    by_cases same : id = m.userId <;> simp [same]
  · rw [admins, stored, h.admins]
    by_cases same : id = m.userId <;> simp [same]
  · obtain ha | rfl := rows a ha
    · exact h.ids a ha
    · exact ok

/-! ## Each call -/

/-- What a login writes, in either store. -/
theorem Agree.login {s : Stores} (h : Agree c s) {claims : Claims} (now : Int)
    (tenant : ∀ existing ∈ s.redis.values (claims.userId c),
      existing.tenantId = claims.tenantId c) :
    (match s.hybrid.find (claims.userId c) with
      | some existing => Members.upsertLogin c claims existing now
      | none => firstLogin c claims now) =
        pipelined c claims (s.redis.values (claims.userId c)) now := by
  rw [← h.values]
  cases found : s.redis.values (claims.userId c) with
  | none => rfl
  | some existing =>
    obtain ⟨mine, id, -⟩ := h.of_find found
    have tenantId := tenant existing found
    have objectId : existing.objectId = claims.objectId c := by
      rw [mine, tenantId] at id
      exact (Names.append_left_inj id).symm
    simp only [pipelined, copyLogin, Members.upsertLogin, firstLogin, mine, tenantId, objectId]

theorem pipelined_ids {s : Stores} (h : Agree c s) {claims : Claims} (now : Int)
    (fits : Fits (firstLogin c claims 0))
    (tenant : ∀ existing ∈ s.redis.values (claims.userId c),
      existing.tenantId = claims.tenantId c) :
    (pipelined c claims (s.redis.values (claims.userId c)) now).userId = claims.userId c ∧
      (pipelined c claims (s.redis.values (claims.userId c)) now).tenantId = claims.tenantId c ∧
      (pipelined c claims (s.redis.values (claims.userId c)) now).objectId = claims.objectId c ∧
      Fits (pipelined c claims (s.redis.values (claims.userId c)) now) := by
  rw [← h.login now tenant]
  cases s.hybrid.find (claims.userId c) <;> exact ⟨rfl, rfl, rfl, fits⟩

theorem Agree.upsertLogin {s : Stores} (h : Agree c s) {claims : Claims} (now : Int)
    (fits : Fits (firstLogin c claims 0))
    (tenant : ∀ existing ∈ s.redis.values (claims.userId c),
      existing.tenantId = claims.tenantId c) :
    (s.redis.upsertLogin c claims now).1 = (s.hybrid.upsertLogin c claims now).1 ∧
      Agree c ⟨(s.redis.upsertLogin c claims now).2, (s.hybrid.upsertLogin c claims now).2⟩ := by
  have written := h.login now tenant
  obtain ⟨userId, tenantId, objectId, fits'⟩ := pipelined_ids h now fits tenant
  have lower := claims.lower_userId c
  -- A member that is stored keeps its role and status.
  have rank : ∀ existing ∈ s.redis.values (claims.userId c),
      (pipelined c claims (s.redis.values (claims.userId c)) now).activeAdmin =
        existing.activeAdmin := by
    intro existing found
    rw [found]
    rfl
  unfold StudioAuthStore.upsertLogin HybridStudioAuthStore.upsertLogin
  rw [lower]
  simp only [written, row_of_fits fits', true_and]
  generalize pipelined c claims (s.redis.values (claims.userId c)) now = m at *
  refine h.write (m := m) ⟨?_, ?_, fits'⟩ ?_ (fun _ => Keyed.get?_put)
    (Keyed.nodup_put h.unique) (fun a ha => ?_) (fun id => ?_) ?_ fun id => ?_
  · rw [userId, tenantId, objectId]
    rfl
  · rw [userId, lower]
  · rw [userId]
  · exact ((Keyed.mem_put h.unique).mp ha).symm.imp_left And.left
  · dsimp only
    rw [userId]
    split_ifs with known
    · exact ⟨Or.inl, fun or => or.elim (fun mem => mem) fun same => same ▸ known⟩
    · simp
  · dsimp only
    split_ifs with known
    · exact h.nodup
    · rw [← List.concat_eq_append]
      exact h.nodup.concat known
  · dsimp only
    rw [userId]
    by_cases same : id = claims.userId c
    · subst same
      split_ifs with is
      · simp [is]
      · simp only [is, Bool.false_eq_true, and_false, ne_eq, not_true, false_and, or_self,
          iff_false]
        rw [h.admins, Option.any_eq_true]
        rintro ⟨existing, found, was⟩
        rw [rank existing found] at is
        exact is was
    · split_ifs <;> simp [same]

theorem Agree.updateMember {s : Stores} (h : Agree c s) {q : Request} (now : Int)
    (sent : sendable q.userId)
    (spelled : c.lower q.userId = q.userId ∨ s.redis.values (c.lower q.userId) = none)
    (actor : (s.redis.values q.actorUserId).isSome) :
    (s.redis.updateMember c q now).1 = (s.hybrid.updateMember q now).1 ∧
      Agree c ⟨(s.redis.updateMember c q now).2, (s.hybrid.updateMember q now).2⟩ := by
  unfold StudioAuthStore.updateMember HybridStudioAuthStore.updateMember
    StudioAuthStore.getMember
  rw [if_neg (by simpa using sent)]
  cases found : s.redis.values (c.lower q.userId) with
  | none =>
    have missing : s.hybrid.find q.userId = none := by
      by_contra some'
      obtain ⟨m, hm⟩ := Option.ne_none_iff_exists'.mp some'
      rw [← h.values] at hm
      rw [(h.of_find hm).2.2.1, hm] at found
      cases found
    simp only [missing]
    exact ⟨trivial, h⟩
  | some current =>
    have plain : c.lower q.userId = q.userId := by
      obtain plain | none := spelled
      · exact plain
      · rw [none] at found
        cases found
    rw [plain] at found ⊢
    obtain ⟨mine, id, lower, fits⟩ := h.of_find found
    obtain ⟨a, ha⟩ := Option.isSome_iff_exists.mp actor
    obtain ⟨is, -, -, fitsActor⟩ := h.of_find ha
    have logged : varchar 600 q.actorUserId = some q.actorUserId := is ▸ fitsActor.1
    simp only [← h.values, found, ← h.card, logged, Option.isNone_some, Bool.false_eq_true,
      if_false]
    by_cases self : q.demotesSelf (current.updated q.update now)
    · simp only [self, if_true]
      exact ⟨trivial, h⟩
    by_cases last : current.activeAdmin ∧ ¬ (current.updated q.update now).activeAdmin ∧
        s.redis.activeAdmins.card ≤ 1
    · simp only [self, if_pos last, if_false, Bool.false_eq_true]
      exact ⟨trivial, h⟩
    · simp only [self, if_neg last, if_false, Bool.false_eq_true, true_and]
      have keeps : ∀ old : StudioMember, { old with
          role := (current.updated q.update now).role
          status := (current.updated q.update now).status
          updatedAt := now }.userId = old.userId := fun _ => rfl
      have there : s.hybrid.find q.userId = some current := h.values q.userId ▸ found
      have userId : (current.updated q.update now).userId = q.userId := mine
      refine h.write (m := current.updated q.update now) ⟨id, ?_, fits⟩ ?_ (fun key => ?_) ?_
        (fun a ha => ?_) (fun id => ?_) h.nodup fun id => ?_
      · rw [userId, plain]
      · rw [userId]
      · rw [HybridStudioAuthStore.find, Keyed.get?_amend keeps, userId]
        rw [HybridStudioAuthStore.find] at there
        rw [there]
        rfl
      · dsimp only
        rw [Keyed.map_key_amend keeps]
        exact h.unique
      · obtain mem | ⟨old, seen, rfl⟩ := Keyed.mem_amend ha
        · exact Or.inl mem
        · obtain rfl : current = old := Option.some.inj (there.symm.trans seen)
          exact Or.inr rfl
      · have known : q.userId ∈ s.redis.members := (h.members _).mpr (by simp [found])
        dsimp only
        rw [userId]
        exact ⟨Or.inl, fun or => or.elim (fun mem => mem) fun same => same ▸ known⟩
      · dsimp only
        rw [userId]
        by_cases same : id = q.userId
        · split_ifs with is <;> simp [same, is]
        · split_ifs <;> simp [same]

theorem Agree.next {s : Stores} (h : Agree c s) {l : Step} (plain : Plain c s l) :
    (s.redis.call c l.now l.call).1.Same (s.hybrid.call c collate l.now l.call).1 ∧
      Agree c (next c collate s l) := by
  obtain ⟨call, now⟩ := l
  cases call with
  | upsertLogin claims =>
    obtain ⟨answers, agree⟩ := h.upsertLogin now plain.1 plain.2
    refine ⟨?_, agree⟩
    change (s.redis.upsertLogin c claims now).1.Same (s.hybrid.upsertLogin c claims now).1
    rw [← answers]
    rfl
  | getMember userId =>
    refine ⟨?_, h⟩
    have sent : sendable (c.lower userId) := plain
    change (Answer.member _).Same (s.hybrid.getMember c userId)
    rw [HybridStudioAuthStore.getMember, if_pos sent, ← h.values]
    rfl
  | listMembers => exact ⟨h.listed, h⟩
  | updateMember q =>
    obtain ⟨sent, spelled, actor⟩ := plain
    obtain ⟨answers, agree⟩ := h.updateMember now sent spelled actor
    refine ⟨?_, agree⟩
    change (s.redis.updateMember c q now).1.Same (s.hybrid.updateMember q now).1
    rw [← answers]
    generalize (s.redis.updateMember c q now).1 = answer
    cases answer
    · rfl
    · exact .refl _
    · rfl

/-- A successful update leaves the actor an active administrator. -/
theorem redis_protects {s : StudioAuthStore} {q : Request} {now : Int} {m : Option StudioMember}
    (spelled : c.lower q.userId = q.userId ∨ s.values (c.lower q.userId) = none)
    (done : (s.updateMember c q now).1 = .member m) :
    Protects c q s.values (s.updateMember c q now).2.values := by
  unfold StudioAuthStore.updateMember StudioAuthStore.getMember at done ⊢
  cases found : s.values (c.lower q.userId) with
  | none =>
    rw [found] at done
    cases done
  | some current =>
    have plain : c.lower q.userId = q.userId := by
      obtain plain | none := spelled
      · exact plain
      · rw [none] at found
        cases found
    simp only [found] at done ⊢
    by_cases self : q.demotesSelf (current.updated q.update now)
    · rw [if_pos self] at done
      cases done
    rw [if_neg self] at done ⊢
    by_cases last : current.activeAdmin ∧ ¬ (current.updated q.update now).activeAdmin ∧
        s.activeAdmins.card ≤ 1
    · rw [if_pos last] at done
      cases done
    rw [if_neg last, plain]
    intro before
    by_cases same : q.userId = q.actorUserId
    · simpa [Request.demotesSelf, same] using self
    · rw [plain] at before
      simp only [Function.update_of_ne (Ne.symm same)]
      exact before.resolve_right same

theorem agree_empty : Agree c {} where
  values _ := rfl
  unique := List.nodup_nil
  members id := by simp
  nodup := List.nodup_nil
  admins id := by simp
  ids m mem := by simp at mem

theorem run_agree {s : Stores} {ls : List Step} (plain : (machine c collate).Along (Plain c) {} ls)
    (run : (machine c collate).exec {} ls = some s) : Agree c s := by
  refine (machine c collate).invariant_along ?_ agree_empty plain run
  intro s l t h ok step
  obtain rfl := Option.some.inj step
  exact (h.next ok).2

theorem stores_agree_and_protect (ls : List Step)
    (plain : (machine c collate).Along (Plain c) {} ls) :
    ∀ before l after a, ls = before ++ l :: after →
      (machine c collate).exec {} before = some a →
        (a.redis.call c l.now l.call).1.Same (a.hybrid.call c collate l.now l.call).1 ∧
        ∀ q m, l.call = .updateMember q →
          ((a.redis.updateMember c q l.now).1 = .member m →
            Protects c q a.redis.values (a.redis.updateMember c q l.now).2.values) ∧
          ((a.hybrid.updateMember q l.now).1 = .member m →
            Protects c q a.hybrid.find (a.hybrid.updateMember q l.now).2.find) := by
  rintro before l after a rfl ha
  obtain ⟨first, rest⟩ := plain.of_append ha
  have agree := run_agree first ha
  refine ⟨(agree.next rest.1).1, fun q m is => ?_⟩
  obtain ⟨call, now⟩ := l
  obtain rfl : call = .updateMember q := is
  obtain ⟨sent, spelled, actor⟩ : _ ∧ _ ∧ _ := rest.1
  obtain ⟨answers, after⟩ := agree.updateMember now sent spelled actor
  refine ⟨redis_protects spelled, fun done => ?_⟩
  rw [← answers] at done
  have same : a.hybrid.find = a.redis.values := funext fun key => (agree.values key).symm
  have same' := funext fun key => (after.values key).symm
  rw [same, same']
  exact redis_protects spelled done

theorem toLower_toLower (a : Char) : a.toLower.toLower = a.toLower := by
  unfold Char.toLower
  grind

/-- `str.lower` of a text in ASCII. -/
def asciiLower (s : String) : String := String.ofList (s.toList.map Char.toLower)

theorem asciiLower_asciiLower (s : String) : asciiLower (asciiLower s) = asciiLower s := by
  simp [asciiLower, Function.comp_def, toLower_toLower]

theorem asciiLower_append (a b : String) : asciiLower (a ++ b) = asciiLower a ++ asciiLower b := by
  simp [asciiLower]

theorem asciiLower_colon : asciiLower ":" = ":" := by decide

/-- The administrators of the runs below. -/
def twoAdmins : StudioEntraConfig where
  lower := asciiLower
  lower_lower := asciiLower_asciiLower
  lower_userId a b := by
    simp only [asciiLower_append, asciiLower_asciiLower, asciiLower_colon]
  adminEmails := ["a@x", "b@x"]
  adminObjectIds := ["a", "b"]

def loggedIn : List Step :=
  [⟨.upsertLogin (claimsOf "A"), 1⟩, ⟨.upsertLogin (claimsOf "B"), 2⟩]

instance (m : StudioMember) : Decidable (Fits m) := inferInstanceAs (Decidable (_ ∧ _))

instance (s : Stores) : (l : Step) → Decidable (Plain c s l)
  | ⟨.upsertLogin _, _⟩ => inferInstanceAs (Decidable (_ ∧ _))
  | ⟨.getMember _, _⟩ => inferInstanceAs (Decidable (_ = true))
  | ⟨.listMembers, _⟩ => inferInstanceAs (Decidable True)
  | ⟨.updateMember _, _⟩ => inferInstanceAs (Decidable (_ ∧ _))

/-- One administrator blocks the other, and finds themselves in another spelling. -/
def blocked : List Step :=
  loggedIn ++ [⟨.updateMember (blocks "a"), 3⟩, ⟨.getMember "T:B", 4⟩, ⟨.listMembers, 5⟩]

theorem blocked_agree :
    ∃ a, (machine twoAdmins (fun a b => a ≤ b)).exec {} loggedIn = some a ∧
      (a.redis.updateMember twoAdmins (blocks "a") 3).1.Same
        (a.hybrid.updateMember (blocks "a") 3).1 := by
  have plain : (machine twoAdmins (fun a b => a ≤ b)).Along (Plain twoAdmins) {} blocked := by
    decide
  have reached : ((machine twoAdmins (fun a b => a ≤ b)).exec {} loggedIn).isSome := by decide
  obtain ⟨a, ha⟩ := Option.isSome_iff_exists.mp reached
  exact ⟨a, ha, (stores_agree_and_protect blocked plain _ _ _ a rfl ha).1⟩

/-- An administrator blocks themselves under another spelling of their id. -/
def blocksSelf : Request := ⟨"T:A", { status := some .blocked }, "t:a"⟩

theorem other_spelling_blocks_self :
    ∃ a m, (machine twoAdmins (fun a b => a ≤ b)).exec {} loggedIn = some a ∧
      (a.redis.updateMember twoAdmins blocksSelf 3).1 = .member (some m) ∧
      (a.hybrid.updateMember blocksSelf 3).1 = .raised (.notFound "T:A") ∧
      (a.redis.values "t:a").any (·.activeAdmin) ∧
      ¬ ((a.redis.updateMember twoAdmins blocksSelf 3).2.values "t:a").any (·.activeAdmin) := by
  refine ⟨_, _, rfl, rfl, rfl, rfl, ?_⟩
  decide

end Relayna.Studio.AuthStores
