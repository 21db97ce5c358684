import Mathlib.Data.Finset.Card
import Relayna.Foundation.Transition
import Relayna.Studio.Members

/-!
# Logins and membership changes at the same time

The Redis store reads a member and writes all of it later, in one pipeline for a login and in a
script for a change. The script looks at the stored member and at the set of active
administrators; the pipeline looks at nothing. The PostgreSQL store locks the member's row, as
long as there is one: a first login locks nothing until it writes, and then writes its role and
status over a row that has appeared in the meantime.

`Fresh` says that a login writes the role and status that are stored. In runs that meet it, roles
and statuses change by `update_member` only and an active administrator remains.
-/
namespace Relayna.Studio.Members

open Python Transition

inductive Backend
  | redis | postgres
  deriving DecidableEq, Repr

/-- A call of `update_member`. -/
structure Request where
  userId : String
  update : StudioUserUpdate
  actorUserId : String
  deriving DecidableEq, Repr

/-- What a call awaits. -/
inductive Stage where
  | loginGet (claims : Claims)
  | loginPipeline (claims : Claims) (read : Option StudioMember)
  | updateGet (q : Request)
  | updateScript (key : String) (next : StudioMember)
  /-- `SELECT … FOR UPDATE`. -/
  | loginSelect (claims : Claims)
  /-- `INSERT … ON CONFLICT DO UPDATE`, with the row that was locked. -/
  | loginInsert (claims : Claims) (row : Option StudioMember)
  | loginCommit (key : String) (m : StudioMember)
  | updateLock (q : Request)
  | updateSelect (q : Request)
  | updateCount (key : String) (next : StudioMember)
  | updateWrite (key : String) (next : StudioMember)
  | updateCommit (key : String) (next : StudioMember)
  | returned (m : StudioMember)
  | raised

/-- The row that a transaction has locked. -/
def Stage.row (c : StudioEntraConfig) : Stage → Option String
  | .loginInsert claims (some _) => some (claims.userId c)
  | .loginCommit key _ | .updateCount key _ | .updateWrite key _ | .updateCommit key _ => some key
  | _ => none

/-- The transaction holds the advisory lock. -/
def Stage.advisory : Stage → Bool
  | .updateSelect _ | .updateCount .. | .updateWrite .. | .updateCommit .. => true
  | _ => false

def Stage.ended : Stage → Bool
  | .returned _ | .raised => true
  | _ => false

/-- The members that are stored, under their ids, the set `active-admins` of the Redis store, and
what calls of `update_member` have returned. -/
structure Store where
  rows : String → Option StudioMember := fun _ => none
  ids : List String := []
  admins : Finset String := ∅
  calls : List Stage := []
  completed : List StudioMember := []

inductive Operation where
  | login (claims : Claims)
  | update (q : Request)

def Operation.stage : Backend → Operation → Stage
  | .redis, .login claims => .loginGet claims
  | .redis, .update q => .updateGet q
  | .postgres, .login claims => .loginSelect claims
  | .postgres, .update q => .updateLock q

/-- `select(count())` over the active administrators. -/
def Store.activeAdmins (s : Store) : Nat :=
  s.ids.countP fun id => (s.rows id).any (·.activeAdmin)

def Store.put (s : Store) (key : String) (m : StudioMember) : Store :=
  { s with
    rows := Function.update s.rows key (some m)
    ids := if key ∈ s.ids then s.ids else s.ids ++ [key] }

/-- The user id is the actor's and the member is no active administrator any more. -/
def Request.demotesSelf (q : Request) (next : StudioMember) : Bool :=
  q.userId = q.actorUserId ∧ ¬ next.activeAdmin

variable (c : StudioEntraConfig)

/-- What the pipeline of a login writes. -/
def pipelined (claims : Claims) (read : Option StudioMember) (now : Int) : StudioMember :=
  match read with
  | some existing => copyLogin c claims existing now
  | none => firstLogin c claims now

/-- What the call awaits is done; `none` while it has to wait for a lock. -/
def await (s : Store) (now : Int) : Stage → Option (Store × Stage)
  | .loginGet claims => some (s, .loginPipeline claims (s.rows (c.lower (claims.userId c))))
  | .loginPipeline claims read =>
    let m := pipelined c claims read now
    some ({ s.put (c.lower (claims.userId c)) m with
      admins := if m.activeAdmin then insert (claims.userId c) s.admins else s.admins },
      .returned m)
  | .updateGet q =>
    match s.rows (c.lower q.userId) with
    | none => some (s, .raised)
    | some current =>
      let next := current.updated q.update now
      if q.demotesSelf next then some (s, .raised)
      else some (s, .updateScript (c.lower q.userId) next)
  | .updateScript key next =>
    match s.rows key with
    | none => some (s, .raised)
    | some current =>
      if current.activeAdmin ∧ ¬ next.activeAdmin ∧ s.admins.card ≤ 1 then some (s, .raised)
      else some ({ s.put key next with
        admins :=
          if next.activeAdmin then insert next.userId s.admins else s.admins.erase next.userId
        completed := s.completed ++ [next] }, .returned next)
  | .loginSelect claims =>
    if s.calls.any fun stage => stage.row c = some (claims.userId c) then none
    else some (s, .loginInsert claims (s.rows (claims.userId c)))
  | .loginInsert claims (some existing) =>
    some (s, .loginCommit (claims.userId c) (upsertLogin c claims existing now))
  | .loginInsert claims none =>
    if s.calls.any fun stage => stage.row c = some (claims.userId c) then none
    else some (s, .loginCommit (claims.userId c) (firstLogin c claims now))
  | .loginCommit key m => some (s.put key m, .returned m)
  | .updateLock q =>
    if s.calls.any (·.advisory) then none else some (s, .updateSelect q)
  | .updateSelect q =>
    if s.calls.any fun stage => stage.row c = some q.userId then none
    else match s.rows q.userId with
      | none => some (s, .raised)
      | some current =>
        let next := current.updated q.update now
        if q.demotesSelf next then some (s, .raised)
        else if current.activeAdmin ∧ ¬ next.activeAdmin then some (s, .updateCount q.userId next)
        else some (s, .updateWrite q.userId next)
  | .updateCount key next =>
    if s.activeAdmins ≤ 1 then some (s, .raised) else some (s, .updateWrite key next)
  | .updateWrite key next => some (s, .updateCommit key { next with updatedAt := now })
  | .updateCommit key next =>
    some ({ s.put key next with completed := s.completed ++ [next] }, .returned next)
  | .returned _ | .raised => none

inductive Step where
  | call (operation : Operation)
  | await (n : Nat) (now : Int)
  | raise (n : Nat)

def next (backend : Backend) (s : Store) : Step → Option Store
  | .call operation => some { s with calls := s.calls ++ [operation.stage backend] }
  | .await n now =>
    s.calls[n]?.bind fun stage =>
      (await c s now stage).map fun r => { r.1 with calls := s.calls.set n r.2 }
  | .raise n =>
    (s.calls[n]?.filter (!·.ended)).map fun _ => { s with calls := s.calls.set n .raised }

def machine (backend : Backend) : Machine Store Step := ⟨next c backend⟩

/-- The login writes the role and status that are stored, if the member is. -/
def Stage.Fresh (s : Store) : Stage → Prop
  | .loginPipeline claims read =>
    ∀ stored ∈ s.rows (c.lower (claims.userId c)), (pipelined c claims read 0).SameRank stored
  | .loginInsert claims none =>
    ∀ stored ∈ s.rows (claims.userId c), (firstLogin c claims 0).SameRank stored
  | _ => True

def Fresh (s : Store) : Step → Prop
  | .await n _ => ∀ stage ∈ s.calls[n]?, stage.Fresh c s
  | _ => True

instance (s : Store) : (stage : Stage) → Decidable (stage.Fresh c s)
  | .loginPipeline .. => inferInstanceAs (Decidable (∀ stored ∈ s.rows _, _))
  | .loginInsert _ none => inferInstanceAs (Decidable (∀ stored ∈ s.rows _, _))
  | .loginInsert _ (some _) | .loginGet _ | .updateGet _ | .updateScript .. | .loginSelect _
  | .loginCommit .. | .updateLock _ | .updateSelect _ | .updateCount .. | .updateWrite ..
  | .updateCommit .. | .returned _ | .raised => inferInstanceAs (Decidable True)

instance (s : Store) : (l : Step) → Decidable (Fresh c s l)
  | .await n _ => inferInstanceAs (Decidable (∀ stage ∈ s.calls[n]?, _))
  | .call _ | .raise _ => inferInstanceAs (Decidable True)

/-! ## What each call knows -/

/-- The stages of each store. -/
def Stage.of : Backend → Stage → Bool
  | .redis, .loginGet _ | .redis, .loginPipeline .. | .redis, .updateGet _
  | .redis, .updateScript .. => true
  | .postgres, .loginSelect _ | .postgres, .loginInsert .. | .postgres, .loginCommit ..
  | .postgres, .updateLock _ | .postgres, .updateSelect _ | .postgres, .updateCount ..
  | .postgres, .updateWrite .. | .postgres, .updateCommit .. => true
  | _, .returned _ | _, .raised => true
  | _, _ => false

def Store.Admin (s : Store) (key : String) : Prop := ∃ m, s.rows key = some m ∧ m.activeAdmin

/-- An update that is about to be written leaves an active administrator. -/
def Store.Leaves (s : Store) (key : String) (next : StudioMember) : Prop :=
  s.Admin key → next.activeAdmin = false → ∃ other, other ≠ key ∧ s.Admin other

def Stage.Ok (s : Store) : Stage → Prop
  | .loginPipeline claims read => ∀ m ∈ read, m.userId = c.lower (claims.userId c)
  | .updateScript key next => next.userId = key
  | .loginInsert claims (some row) => s.rows (claims.userId c) = some row
  | .loginCommit key m => m.userId = key ∧ ∀ stored ∈ s.rows key, m.SameRank stored
  | .updateCount key next => next.userId = key ∧ (s.rows key).isSome
  | .updateWrite key next | .updateCommit key next =>
    next.userId = key ∧ (s.rows key).isSome ∧ s.Leaves key next
  | _ => True

structure Inv (backend : Backend) (s : Store) : Prop where
  keyed : ∀ key m, s.rows key = some m → m.userId = key ∧ key ∈ s.ids
  nodup : s.ids.Nodup
  admins : backend = .redis → ∀ key, key ∈ s.admins ↔ s.Admin key
  stages : ∀ (n : Nat) (stage : Stage), s.calls[n]? = some stage →
    stage.of backend ∧ stage.Ok c s
  rowLocks : ∀ (n m : Nat) (a b : Stage) (key : String), s.calls[n]? = some a →
    s.calls[m]? = some b → a.row c = some key → b.row c = some key → n = m
  advisory : ∀ (n m : Nat) (a b : Stage), s.calls[n]? = some a → s.calls[m]? = some b →
    a.advisory → b.advisory → n = m
  latest : ∀ before next after, s.completed = before ++ next :: after →
    (∀ m ∈ after, m.userId ≠ next.userId) →
      ∃ r, s.rows next.userId = some r ∧ r.SameRank next

variable {c}

/-- One call moves and the rows stay. -/
theorem Inv.stay {backend : Backend} {s : Store} {n : Nat} {stage stage' : Stage}
    (h : Inv c backend s) (hn : s.calls[n]? = some stage) (of : stage'.of backend)
    (ok : stage'.Ok c s)
    (row : ∀ key, stage'.row c = some key → stage.row c = some key ∨
      ∀ other ∈ s.calls, other.row c ≠ some key)
    (advisory : stage'.advisory → stage.advisory ∨ ∀ other ∈ s.calls, other.advisory = false) :
    Inv c backend { s with calls := s.calls.set n stage' } := by
  refine ⟨h.keyed, h.nodup, h.admins, fun m other hm => ?_, ?_, ?_, h.latest⟩
  · obtain ⟨-, rfl⟩ | ⟨-, hm⟩ := set_some_cases hm
    · exact ⟨of, by cases other <;> exact ok⟩
    · obtain ⟨of', ok'⟩ := h.stages m other hm
      exact ⟨of', by cases other <;> exact ok'⟩
  · have apart : ∀ {m : Nat} {other : Stage} {key : String}, s.calls[m]? = some other →
        stage'.row c = some key → other.row c = some key → m = n := by
      intro m other key hm mine theirs
      obtain held | free := row key mine
      · exact h.rowLocks m n other stage key hm hn theirs held
      · exact absurd theirs (free other (List.mem_of_getElem? hm))
    intro m k a b key hm hk ha hb
    obtain ⟨rfl, rfl⟩ | ⟨-, hm'⟩ := set_some_cases hm
    · obtain ⟨rfl, -⟩ | ⟨-, hk'⟩ := set_some_cases hk
      · rfl
      · exact (apart hk' ha hb).symm
    · obtain ⟨rfl, rfl⟩ | ⟨-, hk'⟩ := set_some_cases hk
      · exact apart hm' hb ha
      · exact h.rowLocks m k a b key hm' hk' ha hb
  · have apart : ∀ {m : Nat} {other : Stage}, s.calls[m]? = some other → stage'.advisory →
        other.advisory → m = n := by
      intro m other hm mine theirs
      obtain held | free := advisory mine
      · exact h.advisory m n other stage hm hn theirs held
      · rw [free other (List.mem_of_getElem? hm)] at theirs
        cases theirs
    intro m k a b hm hk ha hb
    obtain ⟨rfl, rfl⟩ | ⟨-, hm'⟩ := set_some_cases hm
    · obtain ⟨rfl, -⟩ | ⟨-, hk'⟩ := set_some_cases hk
      · rfl
      · exact (apart hk' ha hb).symm
    · obtain ⟨rfl, rfl⟩ | ⟨-, hk'⟩ := set_some_cases hk
      · exact apart hm' hb ha
      · exact h.advisory m k a b hm' hk' ha hb

/-! ## Writes -/

theorem put_self (s : Store) (key : String) (m : StudioMember) :
    (s.put key m).rows key = some m := Function.update_self ..

theorem put_of_ne (s : Store) {key other : String} (m : StudioMember) (ne : other ≠ key) :
    (s.put key m).rows other = s.rows other := Function.update_of_ne ne ..

theorem admin_put_self {s : Store} {key : String} {m : StudioMember} :
    (s.put key m).Admin key ↔ m.activeAdmin := by
  simp [Store.Admin, put_self]

theorem admin_put_of_ne {s : Store} {key other : String} {m : StudioMember} (ne : other ≠ key) :
    (s.put key m).Admin other ↔ s.Admin other := by
  simp [Store.Admin, put_of_ne s m ne]

/-- What another call knows stays true when its row is not the one that is written, and an update
that counts on the member can still do so. -/
theorem Stage.Ok.put {s : Store} {key : String} {m : StudioMember} {stage : Stage}
    (h : stage.Ok c s) (row : ∀ other, stage.row c = some other → other ≠ key)
    (counted : stage.advisory → s.Admin key → m.activeAdmin) : stage.Ok c (s.put key m) := by
  have leaves : ∀ {other : String} {next : StudioMember}, other ≠ key → stage.advisory →
      s.Leaves other next → (s.put key m).Leaves other next := by
    intro other next ne locked leaves admin demoted
    obtain ⟨third, apart, is⟩ := leaves ((admin_put_of_ne ne).mp admin) demoted
    refine ⟨third, apart, ?_⟩
    by_cases same : third = key
    · subst same
      exact admin_put_self.mpr (counted locked is)
    · exact (admin_put_of_ne same).mpr is
  cases stage with
  | loginInsert claims read =>
    cases read with
    | none => trivial
    | some existing => exact (put_of_ne s m (row _ rfl)).trans h
  | loginCommit other m' =>
    refine ⟨h.1, ?_⟩
    rw [put_of_ne s m (row _ rfl)]
    exact h.2
  | updateCount other next =>
    refine ⟨h.1, ?_⟩
    rw [put_of_ne s m (row _ rfl)]
    exact h.2
  | updateWrite other next =>
    refine ⟨h.1, ?_, leaves (row _ rfl) rfl h.2.2⟩
    rw [put_of_ne s m (row _ rfl)]
    exact h.2.1
  | updateCommit other next =>
    refine ⟨h.1, ?_, leaves (row _ rfl) rfl h.2.2⟩
    rw [put_of_ne s m (row _ rfl)]
    exact h.2.1
  | _ => exact h

/-- A write of one member, by a call that ends with it. -/
theorem Inv.write {backend : Backend} {s : Store} {n : Nat} {stage : Stage} {key : String}
    {m : StudioMember} {admins : Finset String} {completed : List StudioMember}
    (h : Inv c backend s) (hn : s.calls[n]? = some stage) (mine : m.userId = key)
    (row : ∀ (k : Nat) (other : Stage), k ≠ n → s.calls[k]? = some other →
      ∀ i, other.row c = some i → i ≠ key)
    (counted : ∀ (k : Nat) (other : Stage), k ≠ n → s.calls[k]? = some other →
      other.advisory → s.Admin key → m.activeAdmin)
    (set : backend = .redis → ∀ other, other ∈ admins ↔ (s.put key m).Admin other)
    (latest : completed = s.completed ∧ (∀ stored ∈ s.rows key, m.SameRank stored) ∨
      completed = s.completed ++ [m]) :
    Inv c backend
      { s.put key m with admins, completed, calls := s.calls.set n (.returned m) } := by
  refine ⟨fun other r hr => ?_, ?_, set, fun k other hk => ?_, ?_, ?_, ?_⟩
  · by_cases same : other = key
    · subst same
      obtain rfl : m = r := Option.some.inj ((put_self s other m).symm.trans hr)
      refine ⟨mine, ?_⟩
      change other ∈ if other ∈ s.ids then s.ids else s.ids ++ [other]
      split_ifs with old
      · exact old
      · simp
    · obtain ⟨id, listed⟩ := h.keyed other r ((put_of_ne s m same).symm.trans hr)
      refine ⟨id, ?_⟩
      change other ∈ if key ∈ s.ids then s.ids else s.ids ++ [key]
      split_ifs
      · exact listed
      · exact List.mem_append_left _ listed
  · change (if key ∈ s.ids then s.ids else s.ids ++ [key]).Nodup
    split_ifs with old
    · exact h.nodup
    · rw [← List.concat_eq_append]
      exact h.nodup.concat old
  · obtain ⟨-, rfl⟩ | ⟨ne, hk⟩ := set_some_cases hk
    · exact ⟨by cases backend <;> rfl, trivial⟩
    · obtain ⟨of, ok⟩ := h.stages k other hk
      refine ⟨of, ?_⟩
      have kept := ok.put (row k other ne hk) (counted k other ne hk)
      cases other <;> exact kept
  · intro k j a b i hk hj ha hb
    obtain ⟨rfl, rfl⟩ | ⟨-, hk'⟩ := set_some_cases hk
    · cases ha
    · obtain ⟨rfl, rfl⟩ | ⟨-, hj'⟩ := set_some_cases hj
      · cases hb
      · exact h.rowLocks k j a b i hk' hj' ha hb
  · intro k j a b hk hj ha hb
    obtain ⟨rfl, rfl⟩ | ⟨-, hk'⟩ := set_some_cases hk
    · cases ha
    · obtain ⟨rfl, rfl⟩ | ⟨-, hj'⟩ := set_some_cases hj
      · cases hb
      · exact h.advisory k j a b hk' hj' ha hb
  · intro before last after split apart
    by_cases same : last.userId = key
    · refine ⟨m, by rw [same]; exact put_self s key m, ?_⟩
      obtain ⟨old, rank⟩ | new := latest
      · obtain ⟨r, hr, sameRank⟩ := h.latest before last after (old ▸ split) apart
        rw [same] at hr
        exact (rank r hr).trans sameRank
      · rw [new] at split
        obtain rfl | ⟨rest, x, rfl⟩ := List.eq_nil_or_concat' after
        · obtain ⟨-, one⟩ := List.append_inj' split rfl
          obtain rfl : m = last := List.singleton_inj.mp one
          exact .refl _
        · rw [← List.cons_append, ← List.append_assoc] at split
          obtain ⟨-, one⟩ := List.append_inj' split rfl
          obtain rfl : m = x := List.singleton_inj.mp one
          exact absurd (mine.trans same.symm) (apart m (by simp))
    · have earlier : ∃ after', s.completed = before ++ last :: after' ∧
          ∀ x ∈ after', x.userId ≠ last.userId := by
        obtain ⟨old, -⟩ | new := latest
        · exact ⟨after, old ▸ split, apart⟩
        · rw [new] at split
          obtain rfl | ⟨rest, x, rfl⟩ := List.eq_nil_or_concat' after
          · obtain ⟨-, one⟩ := List.append_inj' split rfl
            obtain rfl : m = last := List.singleton_inj.mp one
            exact absurd mine same
          · rw [← List.cons_append, ← List.append_assoc] at split
            exact ⟨rest, (List.append_inj' split rfl).1,
              fun x hx => apart x (List.mem_append_left _ hx)⟩
      obtain ⟨after', split', apart'⟩ := earlier
      obtain ⟨r, hr, rank⟩ := h.latest before last after' split' apart'
      exact ⟨r, (put_of_ne s m same).trans hr, rank⟩

/-! ## Every step -/

theorem pipelined_rank (claims : Claims) (read : Option StudioMember) (now : Int) :
    (pipelined c claims read now).SameRank (pipelined c claims read 0) := by
  cases read <;> exact ⟨rfl, rfl⟩

theorem row_of_redis {stage : Stage} (h : stage.of .redis) :
    stage.row c = none ∧ stage.advisory = false := by
  cases stage <;> first | exact ⟨rfl, rfl⟩ | cases h

/-- The pipeline of a login. -/
theorem Inv.pipeline {s : Store} {n : Nat} {claims : Claims} {read : Option StudioMember}
    {backend : Backend} (h : Inv c backend s) (hn : s.calls[n]? = some (.loginPipeline claims read))
    (fresh : (Stage.loginPipeline claims read).Fresh c s) (now : Int) :
    Inv c backend { s.put (c.lower (claims.userId c)) (pipelined c claims read now) with
      admins := if (pipelined c claims read now).activeAdmin then insert (claims.userId c) s.admins
        else s.admins
      calls := s.calls.set n (.returned (pipelined c claims read now)) } := by
  obtain rfl : backend = .redis := by
    have of := (h.stages n _ hn).1
    cases backend
    · rfl
    · cases of
  have ok := (h.stages n _ hn).2
  have idle : ∀ (k : Nat) (other : Stage), s.calls[k]? = some other →
      other.row c = none ∧ other.advisory = false := fun k other hk =>
    row_of_redis (h.stages k other hk).1
  have rank : ∀ stored ∈ s.rows (c.lower (claims.userId c)),
      (pipelined c claims read now).SameRank stored := fun stored hs =>
    (pipelined_rank claims read now).trans (fresh stored hs)
  refine h.write hn ?_ ?_ ?_ ?_ (Or.inl ⟨rfl, rank⟩)
  · cases read with
    | some existing => exact ok existing rfl
    | none => exact (claims.lower_userId c).symm
  · intro k other _ hk i hi
    rw [(idle k other hk).1] at hi
    cases hi
  · intro k other _ hk locked
    rw [(idle k other hk).2] at locked
    cases locked
  · intro _ other
    rw [claims.lower_userId c] at rank ⊢
    by_cases same : other = claims.userId c
    · subst same
      rw [admin_put_self]
      split_ifs with admin
      · simp [admin]
      · rw [h.admins rfl]
        refine iff_of_false ?_ admin
        rintro ⟨stored, hs, is⟩
        rw [← (rank stored hs).activeAdmin] at is
        exact admin is
    · rw [admin_put_of_ne same, ← h.admins rfl]
      split_ifs
      · rw [Finset.mem_insert]
        exact or_iff_right same
      · rfl

/-- The script of an update. -/
theorem Inv.script {s : Store} {n : Nat} {key : String} {next : StudioMember}
    {backend : Backend} (h : Inv c backend s) (hn : s.calls[n]? = some (.updateScript key next)) :
    Inv c backend { s.put key next with
      admins := if next.activeAdmin then insert next.userId s.admins
        else s.admins.erase next.userId
      completed := s.completed ++ [next]
      calls := s.calls.set n (.returned next) } := by
  obtain rfl : backend = .redis := by
    have of := (h.stages n _ hn).1
    cases backend
    · rfl
    · cases of
  obtain rfl : next.userId = key := (h.stages n _ hn).2
  have idle : ∀ (k : Nat) (other : Stage), s.calls[k]? = some other →
      other.row c = none ∧ other.advisory = false := fun k other hk =>
    row_of_redis (h.stages k other hk).1
  refine h.write hn rfl ?_ ?_ ?_ (Or.inr rfl)
  · intro k other _ hk i hi
    rw [(idle k other hk).1] at hi
    cases hi
  · intro k other _ hk locked
    rw [(idle k other hk).2] at locked
    cases locked
  · intro _ other
    by_cases same : other = next.userId
    · subst same
      rw [admin_put_self]
      split_ifs with admin
      · simp [admin]
      · simp [admin]
    · rw [admin_put_of_ne same, ← h.admins rfl]
      split_ifs
      · rw [Finset.mem_insert]
        exact or_iff_right same
      · rw [Finset.mem_erase]
        exact and_iff_right same

/-- A commit: no other transaction has locked the row. -/
theorem Inv.commit {s : Store} {n : Nat} {stage : Stage} {key : String} {m : StudioMember}
    {backend : Backend} {completed : List StudioMember} (h : Inv c backend s)
    (hn : s.calls[n]? = some stage) (of : stage.of .redis = false) (held : stage.row c = some key)
    (mine : m.userId = key)
    (counted : stage.advisory ∨ ∀ stored ∈ s.rows key, m.SameRank stored)
    (latest : completed = s.completed ∧ (∀ stored ∈ s.rows key, m.SameRank stored) ∨
      completed = s.completed ++ [m]) :
    Inv c backend
      { s.put key m with completed, calls := s.calls.set n (.returned m) } := by
  obtain rfl : backend = .postgres := by
    have belongs := (h.stages n _ hn).1
    cases backend
    · rw [of] at belongs
      cases belongs
    · rfl
  refine h.write hn mine ?_ ?_ nofun latest
  · rintro k other ne hk i hi rfl
    exact ne (h.rowLocks k n other stage i hk hn hi held)
  · rintro k other ne hk locked ⟨stored, hs, is⟩
    obtain mine | rank := counted
    · exact absurd (h.advisory k n other stage hk hn locked mine) ne
    · rwa [(rank stored hs).activeAdmin]

/-- A member that is stored stays, and its role and status change only by an update, to what the
update returns. -/
def Store.Keeps (s t : Store) : Prop :=
  ∀ key r, s.rows key = some r → ∃ r', t.rows key = some r' ∧
    (r'.SameRank r ∨ ∃ next, t.completed = s.completed ++ [next] ∧ next.userId = key ∧ r' = next)

/-- What one step keeps. -/
structure Advances (backend : Backend) (s t : Store) : Prop where
  inv : Inv c backend t
  keeps : s.Keeps t
  admin : (∃ key, s.Admin key) → ∃ key, t.Admin key

theorem Advances.stay {backend : Backend} {s : Store} {calls : List Stage}
    (h : Inv c backend { s with calls }) : Advances (c := c) backend s { s with calls } :=
  ⟨h, fun _ r hr => ⟨r, hr, Or.inl (.refl r)⟩, fun h => h⟩

theorem Advances.login {backend : Backend} {s t : Store} {key : String} {m : StudioMember}
    (h : Inv c backend t) (rows : t.rows = (s.put key m).rows)
    (rank : ∀ stored ∈ s.rows key, m.SameRank stored) : Advances (c := c) backend s t := by
  have admin : ∀ other, t.Admin other ↔ (s.put key m).Admin other := by
    simp [Store.Admin, rows]
  refine ⟨h, fun other r hr => ?_, ?_⟩
  · rw [rows]
    by_cases same : other = key
    · subst same
      exact ⟨m, put_self s other m, Or.inl (rank r hr)⟩
    · exact ⟨r, (put_of_ne s m same).trans hr, Or.inl (.refl r)⟩
  · rintro ⟨other, r, hr, is⟩
    refine ⟨other, (admin other).mpr ?_⟩
    by_cases same : other = key
    · subst same
      rw [admin_put_self, (rank r hr).activeAdmin]
      exact is
    · exact (admin_put_of_ne same).mpr ⟨r, hr, is⟩

theorem Advances.update {backend : Backend} {s t : Store} {key : String} {next : StudioMember}
    (h : Inv c backend t) (rows : t.rows = (s.put key next).rows) (mine : next.userId = key)
    (completed : t.completed = s.completed ++ [next]) (leaves : s.Leaves key next) :
    Advances (c := c) backend s t := by
  have admin : ∀ other, t.Admin other ↔ (s.put key next).Admin other := by
    simp [Store.Admin, rows]
  refine ⟨h, fun other r hr => ?_, ?_⟩
  · rw [rows]
    by_cases same : other = key
    · subst same
      exact ⟨next, put_self s other next, Or.inr ⟨next, completed, mine, rfl⟩⟩
    · exact ⟨r, (put_of_ne s next same).trans hr, Or.inl (.refl r)⟩
  · rintro ⟨other, is⟩
    by_cases same : other = key
    · subst same
      cases demoted : next.activeAdmin with
      | true => exact ⟨other, (admin other).mpr (admin_put_self.mpr demoted)⟩
      | false =>
        obtain ⟨third, apart, is'⟩ := leaves is demoted
        exact ⟨third, (admin third).mpr ((admin_put_of_ne apart).mpr is')⟩
    · exact ⟨other, (admin other).mpr ((admin_put_of_ne same).mpr is)⟩

/-- The script has seen that another active administrator is left. -/
theorem leaves_of_card {s : Store} {key : String} {current next : StudioMember}
    (h : Inv c .redis s) (hc : s.rows key = some current)
    (guard : ¬ (current.activeAdmin ∧ ¬ next.activeAdmin ∧ s.admins.card ≤ 1)) :
    s.Leaves key next := by
  rintro ⟨r, hr, is⟩ demoted
  obtain rfl : current = r := Option.some.inj (hc.symm.trans hr)
  have more : 1 < s.admins.card := by
    by_contra few
    exact guard ⟨is, by simp [demoted], not_lt.mp few⟩
  obtain ⟨other, mem, ne⟩ := Finset.exists_mem_ne more key
  exact ⟨other, ne, (h.admins rfl other).mp mem⟩

/-- The count has seen that another active administrator is left. -/
theorem leaves_of_count {backend : Backend} {s : Store} {key : String} {next : StudioMember}
    (h : Inv c backend s) (many : ¬ s.activeAdmins ≤ 1) : s.Leaves key next := by
  intro _ _
  have nodup : (s.ids.filter fun id => (s.rows id).any (·.activeAdmin)).Nodup := h.nodup.filter _
  have more : 1 < (s.ids.filter fun id => (s.rows id).any (·.activeAdmin)).toFinset.card := by
    rw [List.toFinset_card_of_nodup nodup, ← List.countP_eq_length_filter]
    exact not_le.mp many
  obtain ⟨other, mem, ne⟩ := Finset.exists_mem_ne more key
  obtain ⟨-, is⟩ := List.mem_filter.mp (List.mem_toFinset.mp mem)
  obtain ⟨r, hr, is⟩ := (Option.any_eq_true _ _).mp is
  exact ⟨other, ne, r, hr, is⟩

theorem advances_await {backend : Backend} {s t : Store} {n : Nat} {now : Int}
    {stage stage' : Stage}
    (h : Inv c backend s) (hn : s.calls[n]? = some stage) (fresh : stage.Fresh c s)
    (step : await c s now stage = some (t, stage')) :
    Advances (c := c) backend s { t with calls := s.calls.set n stage' } := by
  have of := (h.stages n stage hn).1
  have ok := (h.stages n stage hn).2
  -- A transaction that ends without a write.
  have quit : Advances (c := c) backend s { s with calls := s.calls.set n .raised } :=
    .stay (h.stay hn (by cases backend <;> rfl) trivial nofun nofun)
  cases stage with
  | loginGet claims =>
    obtain ⟨rfl, rfl⟩ := Prod.mk.inj (Option.some.inj step)
    refine .stay (h.stay hn (by cases backend <;> exact of) ?_ nofun nofun)
    exact fun m hm => (h.keyed _ m hm).1
  | loginPipeline claims read =>
    obtain ⟨rfl, rfl⟩ := Prod.mk.inj (Option.some.inj step)
    refine .login (h.pipeline hn fresh now) rfl fun stored hs => ?_
    exact (pipelined_rank claims read now).trans (fresh stored hs)
  | updateGet q =>
    simp only [await] at step
    split at step
    · obtain ⟨rfl, rfl⟩ := Prod.mk.inj (Option.some.inj step)
      exact quit
    · rename_i current hc
      split_ifs at step
      · obtain ⟨rfl, rfl⟩ := Prod.mk.inj (Option.some.inj step)
        exact quit
      · obtain ⟨rfl, rfl⟩ := Prod.mk.inj (Option.some.inj step)
        exact .stay (h.stay hn (by cases backend <;> exact of) (h.keyed _ current hc).1 nofun nofun)
  | updateScript key next =>
    simp only [await] at step
    split at step
    · obtain ⟨rfl, rfl⟩ := Prod.mk.inj (Option.some.inj step)
      exact quit
    · rename_i current hc
      by_cases guard : current.activeAdmin ∧ ¬ next.activeAdmin ∧ s.admins.card ≤ 1
      · rw [if_pos guard] at step
        obtain ⟨rfl, rfl⟩ := Prod.mk.inj (Option.some.inj step)
        exact quit
      · rw [if_neg guard] at step
        obtain ⟨rfl, rfl⟩ := Prod.mk.inj (Option.some.inj step)
        have redis : backend = .redis := by
          cases backend
          · rfl
          · cases of
        subst redis
        exact .update (h.script hn) rfl ok rfl (leaves_of_card h hc guard)
  | loginSelect claims =>
    simp only [await] at step
    split_ifs at step with waits
    obtain ⟨rfl, rfl⟩ := Prod.mk.inj (Option.some.inj step)
    refine .stay (h.stay hn (by cases backend <;> exact of) ?_ ?_ nofun)
    · cases hr : s.rows (claims.userId c) with
      | none => trivial
      | some row => exact hr
    · intro key hk
      right
      intro other mem held
      cases hr : s.rows (claims.userId c) with
      | none =>
        rw [hr] at hk
        cases hk
      | some row =>
        rw [hr] at hk
        obtain rfl : claims.userId c = key := Option.some.inj hk
        exact waits (List.any_eq_true.mpr ⟨other, mem, by simpa using held⟩)
  | loginInsert claims read =>
    cases read with
    | some existing =>
      obtain ⟨rfl, rfl⟩ := Prod.mk.inj (Option.some.inj step)
      refine .stay (h.stay hn (by cases backend <;> exact of) ⟨rfl, ?_⟩ (fun key hk => Or.inl hk)
        nofun)
      intro stored hs
      obtain rfl : existing = stored := Option.some.inj (ok.symm.trans hs)
      exact ⟨rfl, rfl⟩
    | none =>
      simp only [await] at step
      split_ifs at step with waits
      obtain ⟨rfl, rfl⟩ := Prod.mk.inj (Option.some.inj step)
      refine .stay (h.stay hn (by cases backend <;> exact of) ⟨rfl, fun stored hs => ?_⟩ ?_ nofun)
      · exact fresh stored hs
      · intro key hk
        obtain rfl : claims.userId c = key := Option.some.inj hk
        right
        intro other mem held
        exact waits (List.any_eq_true.mpr ⟨other, mem, by simpa using held⟩)
  | loginCommit key m =>
    obtain ⟨rfl, rfl⟩ := Prod.mk.inj (Option.some.inj step)
    exact .login (h.commit hn rfl rfl ok.1 (Or.inr ok.2) (Or.inl ⟨rfl, ok.2⟩)) rfl ok.2
  | updateLock q =>
    simp only [await] at step
    split_ifs at step with waits
    obtain ⟨rfl, rfl⟩ := Prod.mk.inj (Option.some.inj step)
    refine .stay (h.stay hn (by cases backend <;> exact of) trivial nofun fun _ => Or.inr ?_)
    intro other mem
    simp only [List.any_eq_true, not_exists, not_and, Bool.not_eq_true] at waits
    exact waits other mem
  | updateSelect q =>
    simp only [await] at step
    split_ifs at step with waits
    have free : ∀ other ∈ s.calls, other.row c ≠ some q.userId := by
      intro other mem held
      exact waits (List.any_eq_true.mpr ⟨other, mem, by simpa using held⟩)
    split at step
    · obtain ⟨rfl, rfl⟩ := Prod.mk.inj (Option.some.inj step)
      exact quit
    · rename_i current hc
      have mine : (current.updated q.update now).userId = q.userId := (h.keyed _ current hc).1
      split_ifs at step with self counts
      · obtain ⟨rfl, rfl⟩ := Prod.mk.inj (Option.some.inj step)
        exact quit
      · obtain ⟨rfl, rfl⟩ := Prod.mk.inj (Option.some.inj step)
        refine .stay (h.stay hn (by cases backend <;> exact of) ⟨mine, by simp [hc]⟩ ?_
          fun _ => Or.inl rfl)
        intro key hk
        exact Or.inr (Option.some.inj hk ▸ free)
      · obtain ⟨rfl, rfl⟩ := Prod.mk.inj (Option.some.inj step)
        refine .stay (h.stay hn (by cases backend <;> exact of) ⟨mine, by simp [hc], ?_⟩ ?_
          fun _ => Or.inl rfl)
        · rintro ⟨r, hr, is⟩ demoted
          obtain rfl : current = r := Option.some.inj (hc.symm.trans hr)
          exact absurd ⟨is, by simp [demoted]⟩ counts
        · intro key hk
          exact Or.inr (Option.some.inj hk ▸ free)
  | updateCount key next =>
    simp only [await] at step
    split_ifs at step with few
    · obtain ⟨rfl, rfl⟩ := Prod.mk.inj (Option.some.inj step)
      exact quit
    · obtain ⟨rfl, rfl⟩ := Prod.mk.inj (Option.some.inj step)
      exact .stay (h.stay hn (by cases backend <;> exact of) ⟨ok.1, ok.2, leaves_of_count h few⟩
        (fun key hk => Or.inl hk) fun _ => Or.inl rfl)
  | updateWrite key next =>
    obtain ⟨rfl, rfl⟩ := Prod.mk.inj (Option.some.inj step)
    exact .stay (h.stay hn (by cases backend <;> exact of) ok (fun key hk => Or.inl hk)
      fun _ => Or.inl rfl)
  | updateCommit key next =>
    obtain ⟨rfl, rfl⟩ := Prod.mk.inj (Option.some.inj step)
    exact .update (h.commit hn rfl rfl ok.1 (Or.inl rfl) (Or.inr rfl)) rfl ok.1 rfl ok.2.2
  | returned | raised => cases step

/-! ## Every run -/

theorem Operation.stage_idle (backend : Backend) (operation : Operation) :
    (operation.stage backend).of backend ∧ (operation.stage backend).row c = none ∧
      (operation.stage backend).advisory = false := by
  cases backend <;> cases operation <;> exact ⟨rfl, rfl, rfl⟩

theorem Operation.stage_ok (backend : Backend) (operation : Operation) (s : Store) :
    (operation.stage backend).Ok c s := by
  cases backend <;> cases operation <;> trivial

theorem Inv.call {backend : Backend} {s : Store} (h : Inv c backend s) (operation : Operation) :
    Inv c backend { s with calls := s.calls ++ [operation.stage backend] } := by
  obtain ⟨of, row, advisory⟩ := operation.stage_idle (c := c) backend
  refine ⟨h.keyed, h.nodup, h.admins, fun m other hm => ?_, fun m k a b key hm hk ha hb => ?_,
    fun m k a b hm hk ha hb => ?_, h.latest⟩
  · obtain hm | rfl := append_some_cases hm
    · obtain ⟨of', ok⟩ := h.stages m other hm
      exact ⟨of', by cases other <;> exact ok⟩
    · exact ⟨of, operation.stage_ok backend _⟩
  · obtain hm | rfl := append_some_cases hm
    · obtain hk | rfl := append_some_cases hk
      · exact h.rowLocks m k a b key hm hk ha hb
      · rw [row] at hb
        cases hb
    · rw [row] at ha
      cases ha
  · obtain hm | rfl := append_some_cases hm
    · obtain hk | rfl := append_some_cases hk
      · exact h.advisory m k a b hm hk ha hb
      · rw [advisory] at hb
        cases hb
    · rw [advisory] at ha
      cases ha

theorem Inv.next {backend : Backend} {s t : Store} {l : Step} (h : Inv c backend s)
    (fresh : Fresh c s l) (hl : next c backend s l = some t) :
    Advances (c := c) backend s t := by
  cases l with
  | call operation =>
    obtain rfl := Option.some.inj hl
    exact .stay (h.call operation)
  | await n now =>
    obtain ⟨stage, hn, step⟩ := Option.bind_eq_some_iff.mp hl
    obtain ⟨⟨u, stage'⟩, awaited, rfl⟩ := Option.map_eq_some_iff.mp step
    exact advances_await h hn (fresh stage hn) awaited
  | raise n =>
    obtain ⟨stage, hn, rfl⟩ := Option.map_eq_some_iff.mp hl
    obtain ⟨hn, -⟩ := Option.filter_eq_some_iff.mp hn
    exact .stay (h.stay hn (by cases backend <;> rfl) trivial nofun nofun)

theorem inv_empty (backend : Backend) : Inv c backend {} where
  keyed _ _ h := by cases h
  nodup := List.nodup_nil
  admins _ key := iff_of_false (Finset.notMem_empty key) (by rintro ⟨_, h, -⟩; cases h)
  stages _ _ h := by simp at h
  rowLocks _ _ _ _ _ h := by simp at h
  advisory _ _ _ _ h := by simp at h
  latest before next after h := by simp at h

theorem run_inv {backend : Backend} {s : Store} {ls : List Step}
    (fresh : (machine c backend).Along (Fresh c) {} ls)
    (run : (machine c backend).exec {} ls = some s) : Inv c backend s :=
  (machine c backend).invariant_along (fun _ _ _ h ok hl => (h.next ok hl).inv) (inv_empty backend)
    fresh run

/-- An active administrator remains for the rest of the run. -/
theorem run_admin {backend : Backend} {s t : Store} {ls : List Step} (h : Inv c backend s)
    (fresh : (machine c backend).Along (Fresh c) s ls)
    (run : (machine c backend).exec s ls = some t) (admin : ∃ key, s.Admin key) :
    ∃ key, t.Admin key :=
  ((machine c backend).invariant_along (I := fun s => Inv c backend s ∧ ∃ key, s.Admin key)
    (fun _ _ _ h ok hl => ⟨(h.1.next ok hl).inv, (h.1.next ok hl).admin h.2⟩) ⟨h, admin⟩
    fresh run).2

theorem membership_changes_survive (backend : Backend) (ls : List Step) (s : Store)
    (run : (machine c backend).exec {} ls = some s)
    (fresh : (machine c backend).Along (Fresh c) {} ls) :
    (∀ before l after a b, ls = before ++ l :: after →
      (machine c backend).exec {} before = some a → next c backend a l = some b → a.Keeps b) ∧
    (∀ before next after, s.completed = before ++ next :: after →
      (∀ m ∈ after, m.userId ≠ next.userId) →
        ∃ r, s.rows next.userId = some r ∧ r.SameRank next) ∧
    (backend = .redis → ∀ key, key ∈ s.admins ↔ s.Admin key) ∧
    ∀ before after a, ls = before ++ after → (machine c backend).exec {} before = some a →
      (∃ key, a.Admin key) → ∃ key, s.Admin key := by
  have inv := run_inv fresh run
  refine ⟨?_, inv.latest, inv.admins, ?_⟩
  · rintro before l after a b rfl ha hl
    obtain ⟨first, rest⟩ := fresh.of_append ha
    exact ((run_inv first ha).next rest.1 hl).keeps
  · rintro before after a rfl ha admin
    obtain ⟨first, rest⟩ := fresh.of_append ha
    rw [Transition.Machine.exec_append, ha] at run
    exact run_admin (run_inv first ha) rest run admin

/-- Two administrators; what is in lower case stays as it is. -/
def twoAdmins : StudioEntraConfig where
  lower s := s
  lower_lower _ := rfl
  lower_userId _ _ := rfl
  adminEmails := ["a@x", "b@x"]
  adminObjectIds := ["a", "b"]

def claimsOf (oid : String) : Claims := ⟨oid, "t", oid ++ "@x", none⟩

def blocks (oid : String) : Request := ⟨"t:" ++ oid, { status := some .blocked }, "t:b"⟩

def activates (oid : String) : Request := ⟨"t:" ++ oid, { status := some .active }, "t:b"⟩

/-- Both administrators log in, one after the other. -/
def loggedIn : Backend → List Step
  | .redis =>
    [.call (.login (claimsOf "a")), .await 0 1, .await 0 1,
      .call (.login (claimsOf "b")), .await 1 2, .await 1 2]
  | .postgres =>
    [.call (.login (claimsOf "a")), .await 0 1, .await 0 1, .await 0 1,
      .call (.login (claimsOf "b")), .await 1 2, .await 1 2, .await 1 2]

/-- One of them is blocked, and then logs in again. -/
def blockedAndBack : List Step :=
  loggedIn .redis ++ [.call (.update (blocks "a")), .await 2 3, .await 2 3,
    .call (.login (claimsOf "a")), .await 3 4, .await 3 4]

theorem blocked_stays_blocked :
    ∃ s next, (machine twoAdmins .redis).exec {} blockedAndBack = some s ∧
      (machine twoAdmins .redis).Along (Fresh twoAdmins) {} blockedAndBack ∧
      s.completed = [next] ∧ next.userId = "t:a" ∧ next.status = .blocked ∧
      (∃ r, s.rows "t:a" = some r ∧ r.SameRank next) ∧
      ∃ key, s.Admin key := by
  have fresh : (machine twoAdmins .redis).Along (Fresh twoAdmins) {} blockedAndBack := by decide
  have reached : ((machine twoAdmins .redis).exec {} blockedAndBack).any (fun s =>
      s.completed.head?.any fun next =>
        s.completed = [next] ∧ next.userId = "t:a" ∧ next.status = .blocked) := by decide
  have first : ((machine twoAdmins .redis).exec {} (loggedIn .redis)).any
      (fun a => (a.rows "t:b").any (·.activeAdmin)) := by decide
  obtain ⟨s, run, seen⟩ := (Option.any_eq_true _ _).mp reached
  obtain ⟨next, -, seen⟩ := (Option.any_eq_true _ _).mp seen
  obtain ⟨one, user, blocked⟩ := of_decide_eq_true seen
  obtain ⟨a, ha, is⟩ := (Option.any_eq_true _ _).mp first
  obtain ⟨m, hm, is⟩ := (Option.any_eq_true _ _).mp is
  have survive := membership_changes_survive .redis blockedAndBack s run fresh
  refine ⟨s, next, run, fresh, one, user, blocked, ?_, ?_⟩
  · rw [← user]
    exact survive.2.1 [] next [] one (List.forall_mem_nil _)
  · exact survive.2.2.2 _ _ a rfl ha ⟨"t:b", m, hm, is⟩

/-- An administrator is blocked after a login of theirs has read them; a member is activated
between two first logins of theirs. -/
def undone : Backend → List Step
  | .redis =>
    loggedIn .redis ++ [.call (.login (claimsOf "a")), .await 2 3,
      .call (.update (blocks "a")), .await 3 4, .await 3 4, .await 2 5]
  | .postgres =>
    loggedIn .postgres ++ [.call (.login (claimsOf "c")), .call (.login (claimsOf "c")),
      .await 2 3, .await 3 3, .await 2 4, .await 2 4,
      .call (.update (activates "c")), .await 4 5, .await 4 5, .await 4 5, .await 4 5,
      .await 3 6, .await 3 6]

theorem undone_rank (backend : Backend) :
    ∃ s next, (machine twoAdmins backend).exec {} (undone backend) = some s ∧
      s.completed = [next] ∧ ∃ r, s.rows next.userId = some r ∧ ¬ r.SameRank next := by
  have ran : ((machine twoAdmins backend).exec {} (undone backend)).any (fun s =>
      s.completed.head?.any fun next => s.completed = [next] ∧
        (s.rows next.userId).any fun r => ¬ r.SameRank next) := by
    cases backend <;> decide
  obtain ⟨s, run, seen⟩ := (Option.any_eq_true _ _).mp ran
  obtain ⟨next, -, seen⟩ := (Option.any_eq_true _ _).mp seen
  obtain ⟨one, seen⟩ := of_decide_eq_true seen
  obtain ⟨r, hr, differs⟩ := (Option.any_eq_true _ _).mp seen
  exact ⟨s, next, run, one, r, hr, of_decide_eq_true differs⟩

theorem login_undoes_update :
    (∃ s next, (machine twoAdmins .redis).exec {} (undone .redis) = some s ∧
      s.completed = [next] ∧ ∃ r, s.rows next.userId = some r ∧ ¬ r.SameRank next) ∧
    ∃ s next, (machine twoAdmins .postgres).exec {} (undone .postgres) = some s ∧
      s.completed = [next] ∧ ∃ r, s.rows next.userId = some r ∧ ¬ r.SameRank next :=
  ⟨undone_rank .redis, undone_rank .postgres⟩

end Relayna.Studio.Members
