import Relayna.Foundation.Python

/-!
# Members of the studio

A member is created by the first login and keeps its role and status in later ones; an
administrator changes them. `str.lower` is a parameter.
-/
namespace Relayna.Studio.Members

open Python

inductive StudioRole
  | admin | readonly
  deriving DecidableEq, Repr

inductive StudioMemberStatus
  | pending | active | blocked
  deriving DecidableEq, Repr

structure StudioMember where
  userId : String
  tenantId : String
  objectId : String
  email : String
  displayName : String
  role : StudioRole
  status : StudioMemberStatus
  createdAt : Int
  updatedAt : Int
  lastSignInAt : Option Int
  deriving DecidableEq, Repr

structure StudioUserUpdate where
  role : Option StudioRole := none
  status : Option StudioMemberStatus := none
  deriving DecidableEq, Repr

/-- The claims that a login reads, as texts. -/
structure Claims where
  oid : String
  tid : String
  email : String
  name : Option String := none
  deriving DecidableEq, Repr

/-- `lower` is `str.lower`: it leaves alone what is in lower case. -/
structure StudioEntraConfig where
  lower : String → String
  lower_lower : ∀ a, lower (lower a) = lower a
  lower_userId : ∀ a b, lower (lower a ++ ":" ++ lower b) = lower a ++ ":" ++ lower b
  adminEmails : List String
  adminObjectIds : List String

def StudioMember.activeAdmin (m : StudioMember) : Bool := m.role = .admin ∧ m.status = .active

/-- The two members have the same role and status. -/
def StudioMember.SameRank (a b : StudioMember) : Prop := a.role = b.role ∧ a.status = b.status

instance (a b : StudioMember) : Decidable (a.SameRank b) := inferInstanceAs (Decidable (_ ∧ _))

namespace StudioMember

theorem SameRank.refl (a : StudioMember) : a.SameRank a := ⟨rfl, rfl⟩

theorem SameRank.trans {a b c : StudioMember} (h : a.SameRank b) (h' : b.SameRank c) :
    a.SameRank c :=
  ⟨h.1.trans h'.1, h.2.trans h'.2⟩

theorem SameRank.activeAdmin {a b : StudioMember} (h : a.SameRank b) :
    a.activeAdmin = b.activeAdmin := by
  rw [StudioMember.activeAdmin, h.1, h.2]
  rfl

end StudioMember

section Login

variable (c : StudioEntraConfig) (claims : Claims)

def Claims.objectId : String := c.lower (strip claims.oid)

def Claims.tenantId : String := c.lower (strip claims.tid)

def Claims.userId : String := claims.tenantId c ++ ":" ++ claims.objectId c

def Claims.mail : String := c.lower (strip claims.email)

/-- `str(claims.get("name") or email)`. -/
def Claims.displayName : String := (claims.name.filter (· ≠ "")).getD (claims.mail c)

def Claims.bootstrap : Bool :=
  claims.mail c ∈ c.adminEmails ∧ claims.objectId c ∈ c.adminObjectIds

/-- The member that a first login creates. -/
def firstLogin (now : Int) : StudioMember where
  userId := claims.userId c
  tenantId := claims.tenantId c
  objectId := claims.objectId c
  email := claims.mail c
  displayName := claims.displayName c
  role := if claims.bootstrap c then .admin else .readonly
  status := if claims.bootstrap c then .active else .pending
  createdAt := now
  updatedAt := now
  lastSignInAt := some now

/-- The Redis store copies the member that it has read. -/
def copyLogin (existing : StudioMember) (now : Int) : StudioMember :=
  { existing with
    email := claims.mail c
    displayName := claims.displayName c
    updatedAt := now
    lastSignInAt := some now }

/-- The PostgreSQL store writes every column, three of them as it has read them. -/
def upsertLogin (existing : StudioMember) (now : Int) : StudioMember :=
  { firstLogin c claims now with
    role := existing.role
    status := existing.status
    createdAt := existing.createdAt }

theorem Claims.lower_userId : c.lower (claims.userId c) = claims.userId c := c.lower_userId _ _

end Login

/-- The member after an update. -/
def StudioMember.updated (m : StudioMember) (update : StudioUserUpdate) (now : Int) :
    StudioMember :=
  { m with
    role := update.role.getD m.role
    status := update.status.getD m.status
    updatedAt := now }

end Relayna.Studio.Members
