import Relayna.Studio.RecoveryRun

/-!
# Recovery never resends

Items leave `pending` in the order of the list, and only the first pending item can be claimed or
blocked: a worker that is about to do so either comes too late for its item, or its item is still
the first pending one and the allowance is not used up. Nothing else can move in between without
touching that item, so the allowance holds although the decision was made on an old snapshot.
-/
namespace Relayna.Studio.Recovery

open Transition

/-- The item has left `pending`. -/
def Touched (p : Plan) (f : String) : Prop :=
  ∃ i, p.item? f = some i ∧ i.isPending = false

def Plan.firstPending (p : Plan) : Option String :=
  (p.items.find? Item.isPending).map Item.failureId

/-- The item is not pending any more, or it is the next to go. -/
def InTurn (p : Plan) (f : String) : Prop :=
  Touched p f ∨ (p.firstPending = some f ∧ used p.items < p.allowance)

variable {p q : Plan} {f f' : String} {now : Int}

/-- What every edit of the plan keeps. -/
structure Advances (p q : Plan) : Prop where
  ids : q.items.map Item.failureId = p.items.map Item.failureId
  touched : ∀ {f}, Touched p f → Touched q f
  inTurn : ∀ {f}, InTurn p f → InTurn q f
  bound : used p.items ≤ p.allowance → used q.items ≤ q.allowance
  interval : q.intervalSeconds = p.intervalSeconds
  later : p.nextDispatchAt ≤ q.nextDispatchAt
  version : p.version ≤ q.version
  stopped : p.state = .stopped → q.state = .stopped

theorem Advances.refl (p : Plan) : Advances p p :=
  ⟨rfl, id, id, id, rfl, le_rfl, le_rfl, id⟩

section Amend

variable {g : Item → Item} {i : Item}

theorem item?_amend (items : q.items = p.amend f g) (keeps : ∀ i, (g i).failureId = i.failureId)
    (f' : String) : q.item? f' = if f' = f then (p.item? f).map g else p.item? f' := by
  unfold Plan.item?
  rw [items]
  exact Keyed.get?_amend keeps

theorem touched_amend (keeps : ∀ i, (g i).failureId = i.failureId)
    (items : q.items = p.amend f g) (found : p.item? f = some i)
    (stays : i.isPending = false → (g i).isPending = false) (h : Touched p f') :
    Touched q f' := by
  obtain ⟨j, found', spent⟩ := h
  by_cases same : f' = f
  · subst same
    obtain rfl : i = j := Option.some.inj (found.symm.trans found')
    refine ⟨g i, ?_, stays spent⟩
    rw [item?_amend items keeps, if_pos rfl, found, Option.map_some]
  · refine ⟨j, ?_, spent⟩
    rw [item?_amend items keeps, if_neg same, found']

theorem used_amend (found : p.item? f = some i) (items : q.items = p.amend f g) :
    used q.items + (if i.isPending then 0 else 1) =
      used p.items + (if (g i).isPending then 0 else 1) := by
  have count := Keyed.countP_amend (g := g) (p := fun i => !i.isPending) found
  simp only [used, items, Plan.amend]
  cases hi : i.isPending <;> cases hg : (g i).isPending <;> simp [hi, hg] at count ⊢ <;> omega

theorem firstPending_amend (keeps : ∀ i, (g i).failureId = i.failureId)
    (found : p.item? f = some i) (items : q.items = p.amend f g)
    (same : (g i).isPending = i.isPending) : q.firstPending = p.firstPending := by
  unfold Plan.firstPending
  rw [items]
  refine Keyed.map_key_find?_amend keeps fun a ha => ?_
  obtain rfl : i = a := Option.some.inj (found.symm.trans ha)
  exact same

/-- An item that is in turn is changed. -/
theorem advances_amend (turn : InTurn p f) (found : p.item? f = some i)
    (items : q.items = p.amend f g) (keeps : ∀ i, (g i).failureId = i.failureId)
    (stays : i.isPending = false → (g i).isPending = false)
    (allowance : q.allowance = p.allowance) (interval : q.intervalSeconds = p.intervalSeconds)
    (later : p.nextDispatchAt ≤ q.nextDispatchAt) (version : p.version ≤ q.version)
    (stopped : p.state = .stopped → q.state = .stopped) : Advances p q := by
  have touched {f' : String} (h : Touched p f') : Touched q f' :=
    touched_amend keeps items found stays h
  have count := used_amend found items
  refine ⟨?_, touched, fun {f'} h => ?_, fun bound => ?_, interval, later, version, stopped⟩
  · rw [items]
    exact Keyed.map_key_amend keeps
  · rcases h with h | ⟨first, room⟩
    · exact Or.inl (touched h)
    by_cases same : (g i).isPending = i.isPending
    · refine Or.inr ⟨(firstPending_amend keeps found items same).trans first, ?_⟩
      rw [same] at count
      omega
    · -- the item has left `pending`, so it is the first pending one
      have was : i.isPending = true := by
        by_contra spent
        have := stays (by simpa using spent)
        simp_all
      rcases turn with ⟨j, hj, spent⟩ | ⟨here, -⟩
      · rw [found] at hj
        obtain rfl := Option.some.inj hj
        simp [was] at spent
      · obtain rfl : f = f' := Option.some.inj (here.symm.trans first)
        refine Or.inl ⟨g i, ?_, by simpa [was] using same⟩
        rw [item?_amend items keeps, if_pos rfl, found, Option.map_some]
  · rcases turn with ⟨j, hj, spent⟩ | ⟨-, room⟩
    · rw [found] at hj
      obtain rfl := Option.some.inj hj
      rw [spent, stays spent] at count
      simp only [Bool.false_eq_true, if_false] at count
      omega
    · split at count <;> split at count <;> omega

end Amend

/-- An edit that leaves the items alone. -/
theorem advances_of_items (items : q.items = p.items)
    (room : used p.items < p.allowance → used p.items < q.allowance)
    (bound : used p.items ≤ p.allowance → used p.items ≤ q.allowance)
    (interval : q.intervalSeconds = p.intervalSeconds)
    (later : p.nextDispatchAt ≤ q.nextDispatchAt) (version : p.version ≤ q.version)
    (stopped : p.state = .stopped → q.state = .stopped) : Advances p q := by
  have touched {f : String} (h : Touched p f) : Touched q f := by
    simpa only [Touched, Plan.item?, items] using h
  refine ⟨by rw [items], touched, fun h => ?_, fun h => by rw [items]; exact bound h, interval,
    later, version, stopped⟩
  rcases h with h | ⟨first, h⟩
  · exact Or.inl (touched h)
  · refine Or.inr ⟨?_, by rw [items]; exact room h⟩
    simpa only [Plan.firstPending, items] using first

theorem advances_block {e : PreflightError} (turn : InTurn p f) (h : p.block f e = some q) :
    Advances p q := by
  obtain ⟨i, found, running, pending, rfl⟩ := block_cases h
  refine advances_amend turn found rfl (fun _ => rfl) (fun spent => ?_) rfl rfl le_rfl
    (Nat.le_succ _) (fun stopped => ?_)
  · rw [pending] at spent
    cases spent
  · rw [running] at stopped
    cases stopped

theorem advances_claim {snapshot : Nat} {baseline : Option Int} (turn : InTurn p f)
    (h : p.claim snapshot f baseline now = some q) : Advances p q ∧ Touched q f := by
  obtain ⟨i, found, running, version, pending, room, due, rfl⟩ := claim_cases h
  refine ⟨advances_amend turn found rfl (fun _ => rfl) (fun _ => rfl) rfl rfl ?_ le_rfl id, ?_⟩
  · exact due.trans (by simp only [seconds]; omega)
  · refine ⟨i.claim baseline now, ?_, rfl⟩
    rw [item?_amend (g := Item.claim baseline now) rfl (fun _ => rfl), if_pos rfl, found,
      Option.map_some]

theorem update_isPending {ch : Changes} {i : Item} (spent : i.isPending = false) :
    (i.update ch).isPending = false := by
  unfold Item.isPending Item.update at *
  cases ch.dispatchState with
  | none => simpa using spent
  | some a => cases a <;> rfl

theorem advances_itemChange {ch : Changes} (touched : Touched p f)
    (h : p.itemChange f ch = some q) : Advances p q := by
  obtain ⟨i, found, -, -, rfl⟩ := itemChange_cases h
  exact advances_amend (Or.inl touched) found rfl (fun _ => rfl) update_isPending rfl rfl le_rfl
    le_rfl id

theorem advances_settle (h : p.settle now = some q) : Advances p q := by
  obtain ⟨running, -, ⟨-, rfl⟩ | ⟨-, rfl⟩⟩ := settle_cases h
  all_goals
    refine advances_of_items rfl id id rfl le_rfl (Nat.le_succ _) fun stopped => ?_
    rw [running] at stopped
    cases stopped

theorem used_le_length (items : List Item) : used items ≤ items.length := List.countP_le_length

theorem advances_control {c : Control} (h : p.control c now = .ok q) : Advances p q := by
  obtain ⟨-, r, acted, rfl⟩ := control_cases h
  cases acted with
  | stop action running =>
    exact advances_of_items rfl id id rfl le_rfl (Nat.le_succ _) fun _ => rfl
  | pause action running =>
    refine advances_of_items rfl id id rfl le_rfl (Nat.le_succ _) fun stopped => ?_
    rw [running] at stopped
    cases stopped
  | resume action paused room =>
    refine advances_of_items rfl id id rfl le_rfl (Nat.le_succ _) fun stopped => ?_
    rw [paused] at stopped
    cases stopped
  | batch action waits some_pending =>
    -- a batch grants at least one item more, also when the old allowance was not used up
    have room : used p.items < min p.items.length (used p.items + c.count) := by
      have := used_le_length p.items
      have := c.count_pos
      omega
    refine advances_of_items rfl (fun _ => room) (fun _ => room.le) rfl le_rfl (Nat.le_succ _)
      fun stopped => ?_
    rw [stopped] at waits
    simp at waits

theorem stopped_of_control {c : Control} (h : p.control c now = .ok q) (stop : c.action = .stop) :
    q.state = .stopped := by
  obtain ⟨-, r, acted, rfl⟩ := control_cases h
  cases acted with
  | stop => rfl
  | pause action => simp [stop] at action
  | resume action => simp [stop] at action
  | batch action => simp [stop] at action

/-! ## Workers -/

/-- What a worker relies on. -/
def Tracks (s : Center) : Worker → Prop
  | .idle | .loading => True
  | .inspecting _ f | .judged _ f _ => InTurn s.plan f
  | .claimed f => f ∈ s.claims.map Prod.fst ∧ f ∉ s.sent
  | .awaiting f | .answered f _ => f ∈ s.claims.map Prod.fst
  | .observing items => ∀ i ∈ items, Touched s.plan i.failureId
  | .noting f _ rest => Touched s.plan f ∧ ∀ items ∈ rest, ∀ i ∈ items, Touched s.plan i.failureId

structure DispatchInv (s : Center) : Prop where
  unique : (s.plan.items.map Item.failureId).Nodup
  bound : used s.plan.items ≤ s.plan.allowance
  spaced : s.claims.Pairwise fun a b => a.2 + seconds s.plan.intervalSeconds ≤ b.2
  later : ∀ c ∈ s.claims, c.2 + seconds s.plan.intervalSeconds ≤ s.plan.nextDispatchAt
  touched : ∀ f ∈ s.claims.map Prod.fst, Touched s.plan f
  once : (s.claims.map Prod.fst).Nodup
  sent_once : s.sent.Nodup
  sent_claimed : ∀ f ∈ s.sent, f ∈ s.claims.map Prod.fst
  tracks : ∀ w, Tracks s (s.workers w)
  alone : ∀ {w w' f}, s.workers w = .claimed f → s.workers w' = .claimed f → w = w'
  stopped : s.stopped = true → s.plan.state = .stopped

section Step

variable {s t : Center} {w : Nat} {x : Worker}

theorem Tracks.mono (adv : Advances s.plan t.plan)
    (claims : ∀ f ∈ s.claims.map Prod.fst, f ∈ t.claims.map Prod.fst) (sent : t.sent = s.sent)
    (h : Tracks s x) : Tracks t x := by
  cases x with
  | idle => trivial
  | loading => trivial
  | inspecting version f => exact adv.inTurn h
  | judged version f verdict => exact adv.inTurn h
  | claimed f => exact ⟨claims f h.1, sent ▸ h.2⟩
  | awaiting f => exact claims f h
  | answered f ch => exact claims f h
  | observing items => exact fun i hi => adv.touched (h i hi)
  | noting f ch rest =>
    exact ⟨adv.touched h.1, fun items hr i hi => adv.touched (h.2 items hr i hi)⟩

/-- A step that neither claims nor sends. -/
theorem DispatchInv.advance (inv : DispatchInv s) (adv : Advances s.plan t.plan)
    (claims : t.claims = s.claims) (sent : t.sent = s.sent)
    (stopped : t.stopped = true → t.plan.state = .stopped)
    (workers : ∀ w, t.workers w = s.workers w ∨
      (Tracks t (t.workers w) ∧ ∀ f, t.workers w ≠ .claimed f)) : DispatchInv t where
  unique := adv.ids ▸ inv.unique
  bound := adv.bound inv.bound
  spaced := by
    rw [claims, adv.interval]
    exact inv.spaced
  later c hc := by
    rw [adv.interval]
    exact (inv.later c (claims ▸ hc)).trans adv.later
  touched f hf := adv.touched (inv.touched f (claims ▸ hf))
  once := claims ▸ inv.once
  sent_once := sent ▸ inv.sent_once
  sent_claimed f hf := by
    rw [claims]
    exact inv.sent_claimed f (sent ▸ hf)
  tracks w := by
    rcases workers w with same | ⟨tracked, -⟩
    · rw [same]
      exact (inv.tracks w).mono adv (fun f hf => claims ▸ hf) sent
    · exact tracked
  alone := by
    intro w w' f hw hw'
    rcases workers w with same | ⟨-, other⟩
    · rcases workers w' with same' | ⟨-, other⟩
      · exact inv.alone (same ▸ hw) (same' ▸ hw')
      · exact absurd hw' (other f)
    · exact absurd hw (other f)
  stopped := stopped

theorem workers_moved (moved : t.workers = Function.update s.workers w x) (tracked : Tracks t x)
    (other : ∀ f, x ≠ .claimed f) (w' : Nat) :
    t.workers w' = s.workers w' ∨ (Tracks t (t.workers w') ∧ ∀ f, t.workers w' ≠ .claimed f) := by
  by_cases same : w' = w
  · subst same
    rw [moved, Function.update_self]
    exact Or.inr ⟨tracked, other⟩
  · rw [moved, Function.update_of_ne same]
    exact Or.inl rfl

theorem touched_of_mem (unique : (p.items.map Item.failureId).Nodup) {i : Item}
    (h : i ∈ p.items) (spent : i.isPending = false) : Touched p i.failureId :=
  ⟨i, Keyed.get?_of_mem unique h, spent⟩

theorem inTurn_of_dispatchTarget (h : p.dispatchTarget = some f) : InTurn p f := by
  unfold Plan.dispatchTarget at h
  split at h
  · cases h
  · next i first =>
    split at h
    · cases h
    · next open' =>
      refine Or.inr ⟨?_, by omega⟩
      rw [Plan.firstPending, first]
      exact h

theorem mem_candidates {items : List Item} {i : Item} (h : i ∈ candidates items) :
    i ∈ items ∧ i.observable = true :=
  List.mem_filter.mp ((List.mem_insertionSort _).mp (List.mem_of_mem_take h))

theorem isPending_of_observable {i : Item} (h : i.observable = true) : i.isPending = false := by
  unfold Item.observable at h
  unfold Item.isPending
  cases hd : i.dispatchState <;> simp_all

/-- A worker whose item is in turn claims it. -/
theorem DispatchInv.claim {version : Nat} {baseline : Option Int} (inv : DispatchInv s)
    (turn : InTurn s.plan f) (h : s.plan.claim version f baseline s.clock = some q) :
    DispatchInv
      ({ s with plan := q, claims := s.claims ++ [(f, s.clock)] }.move w (.claimed f)) := by
  obtain ⟨adv, spent⟩ := advances_claim turn h
  obtain ⟨i, found, -, -, pending, -, due, hq⟩ := claim_cases h
  have fresh : f ∉ s.claims.map Prod.fst := by
    intro old
    obtain ⟨j, found', spent'⟩ := inv.touched f old
    obtain rfl : i = j := Option.some.inj (found.symm.trans found')
    rw [pending] at spent'
    cases spent'
  set t : Center := { s with plan := q, claims := s.claims ++ [(f, s.clock)] } with ht
  have claims : t.claims.map Prod.fst = s.claims.map Prod.fst ++ [f] := by simp [ht]
  have old (g : String) (hg : g ∈ s.claims.map Prod.fst) : g ∈ t.claims.map Prod.fst := by
    rw [claims]
    exact List.mem_append_left _ hg
  have others (w' : Nat) (g : String) (hw : (t.move w (.claimed f)).workers w' = .claimed g) :
      (w' = w ∧ g = f) ∨ (s.workers w' = .claimed g ∧ g ≠ f) := by
    by_cases same : w' = w
    · subst same
      simp only [Center.move, Function.update_self, Worker.claimed.injEq] at hw
      exact Or.inl ⟨rfl, hw.symm⟩
    · have there : s.workers w' = .claimed g := by simpa [Center.move, same] using hw
      refine Or.inr ⟨there, ?_⟩
      rintro rfl
      have tracked := inv.tracks w'
      rw [there] at tracked
      exact fresh tracked.1
  refine ⟨adv.ids ▸ inv.unique, adv.bound inv.bound, ?_, ?_, ?_, ?_, inv.sent_once, ?_, ?_, ?_,
    fun stopped => adv.stopped (inv.stopped stopped)⟩
  · show (s.claims ++ [(f, s.clock)]).Pairwise _
    rw [List.pairwise_append]
    refine ⟨?_, List.pairwise_singleton _ _, fun a ha b hb => ?_⟩
    · simp only [Center.move, ht, adv.interval]
      exact inv.spaced
    · obtain rfl := List.mem_singleton.mp hb
      simp only [Center.move, ht, adv.interval]
      exact (inv.later a ha).trans due
  · intro c hc
    simp only [Center.move, ht, adv.interval]
    rcases List.mem_append.mp hc with hc | hc
    · exact (inv.later c hc).trans adv.later
    · obtain rfl := List.mem_singleton.mp hc
      rw [hq]
  · intro g hg
    rcases List.mem_append.mp (claims ▸ hg) with hg | hg
    · exact adv.touched (inv.touched g hg)
    · obtain rfl := List.mem_singleton.mp hg
      exact spent
  · show (t.claims.map Prod.fst).Nodup
    rw [claims, List.nodup_append]
    refine ⟨inv.once, List.nodup_singleton f, ?_⟩
    rintro g hg g' hg' rfl
    exact fresh (List.mem_singleton.mp hg' ▸ hg)
  · exact fun g hg => old g (inv.sent_claimed g hg)
  · intro w'
    by_cases same : w' = w
    · subst same
      simp only [Center.move, Function.update_self]
      exact ⟨claims ▸ List.mem_append_right _ List.mem_cons_self,
        fun sent => fresh (inv.sent_claimed f sent)⟩
    · simp only [Center.move, Function.update_of_ne same]
      exact (inv.tracks w').mono adv old rfl
  · intro w₁ w₂ g h₁ h₂
    rcases others w₁ g h₁ with ⟨rfl, rfl⟩ | ⟨h₁, other⟩
    · rcases others w₂ g h₂ with ⟨rfl, -⟩ | ⟨-, other⟩
      · rfl
      · exact absurd rfl other
    · rcases others w₂ g h₂ with ⟨-, same⟩ | ⟨h₂, -⟩
      · exact absurd same other
      · exact inv.alone h₁ h₂

/-- The worker that has claimed an item sends its request. -/
theorem DispatchInv.send (inv : DispatchInv s) (here : s.workers w = .claimed f) :
    DispatchInv ({ s with sent := s.sent ++ [f], inFlight := f :: s.inFlight }.move w
      (.awaiting f)) := by
  have tracked : f ∈ s.claims.map Prod.fst ∧ f ∉ s.sent := by
    have := inv.tracks w
    rwa [here] at this
  refine { inv with sent_once := ?_, sent_claimed := ?_, tracks := ?_, alone := ?_ }
  · show (s.sent ++ [f]).Nodup
    rw [List.nodup_append]
    refine ⟨inv.sent_once, List.nodup_singleton f, ?_⟩
    rintro g hg g' hg' rfl
    exact tracked.2 (List.mem_singleton.mp hg' ▸ hg)
  · intro g hg
    rcases List.mem_append.mp hg with hg | hg
    · exact inv.sent_claimed g hg
    · obtain rfl := List.mem_singleton.mp hg
      exact tracked.1
  · intro w'
    by_cases same : w' = w
    · subst same
      simp only [Center.move, Function.update_self]
      exact tracked.1
    · simp only [Center.move, Function.update_of_ne same]
      have kept := inv.tracks w'
      cases at' : s.workers w' with
      | claimed g =>
        rw [at'] at kept
        refine ⟨kept.1, fun sent => ?_⟩
        rcases List.mem_append.mp sent with sent | sent
        · exact kept.2 sent
        · obtain rfl := List.mem_singleton.mp sent
          exact same (inv.alone at' here)
      | _ =>
        rw [at'] at kept
        exact kept
  · intro w₁ w₂ g h₁ h₂
    have there (w' : Nat) (h : Function.update s.workers w (.awaiting f) w' = .claimed g) :
        s.workers w' = .claimed g := by
      by_cases same : w' = w
      · subst same
        simp at h
      · simpa [same] using h
    exact inv.alone (there w₁ h₁) (there w₂ h₂)

theorem advances_change {edit : Option Plan} (h : ∀ q, edit = some q → Advances s.plan q) :
    Advances s.plan (s.change edit).plan := by
  cases edit with
  | none => exact .refl _
  | some q => exact h q rfl

theorem advances_step (inv : DispatchInv s) {l : Step} (taken : next s l = some t) :
    Advances s.plan t.plan := by
  have tracks {w : Nat} {x : Worker} (here : s.workers w = x) : Tracks s x := here ▸ inv.tracks w
  cases taken_of_next taken with
  | controlled h => exact advances_control h
  | block here => exact advances_change fun q hq => advances_block (tracks here) hq
  | claim here h => exact (advances_claim (tracks here) h).1
  | record here =>
    exact advances_change fun q hq => advances_itemChange (inv.touched _ (tracks here)) hq
  | note here => exact advances_change fun q hq => advances_itemChange (tracks here).1 hq
  | settle here => exact advances_change fun q hq => advances_settle hq
  | _ => exact .refl _

theorem DispatchInv.step (inv : DispatchInv s) {l : Step} (taken : next s l = some t) :
    DispatchInv t := by
  have tracks {w : Nat} {x : Worker} (here : s.workers w = x) : Tracks s x := here ▸ inv.tracks w
  have adv := advances_step inv taken
  have stopped (h : s.stopped = true) : t.plan.state = .stopped := adv.stopped (inv.stopped h)
  cases taken_of_next taken with
  | clock later => exact inv.advance adv rfl rfl stopped fun _ => Or.inl rfl
  | refused h => exact inv
  | controlled h =>
    refine inv.advance adv rfl rfl (fun ended => ?_) fun _ => Or.inl rfl
    simp only [Center.controlled, Bool.or_eq_true, decide_eq_true_eq] at ended
    rcases ended with ended | stop
    · exact stopped ended
    · exact stopped_of_control h stop
  | due here =>
    refine inv.advance adv rfl rfl stopped (workers_moved rfl ?_ ?_)
    · cases target : s.plan.dispatchTarget with
      | none => trivial
      | some f => exact inTurn_of_dispatchTarget target
    · cases s.plan.dispatchTarget <;> simp
  | preflight verdict here =>
    have turn := tracks here
    exact inv.advance adv rfl rfl stopped (workers_moved rfl turn (by simp))
  | block here => exact inv.advance adv rfl rfl stopped (workers_moved rfl trivial (by simp))
  | unclaimed here => exact inv.advance adv rfl rfl stopped (workers_moved rfl trivial (by simp))
  | claim here h => exact inv.claim (tracks here) h
  | send here => exact inv.send here
  | retry r arrived => exact inv.advance adv rfl rfl stopped fun _ => Or.inl rfl
  | respond here attested =>
    have claimed := tracks here
    exact inv.advance adv rfl rfl stopped (workers_moved rfl claimed (by simp))
  | record here => exact inv.advance adv rfl rfl stopped (workers_moved rfl trivial (by simp))
  | load here =>
    refine inv.advance adv rfl rfl stopped (workers_moved rfl (fun i hi => ?_) (by simp))
    obtain ⟨mem, seen⟩ := mem_candidates hi
    exact touched_of_mem inv.unique mem (isPending_of_observable seen)
  | skip e here =>
    have later (i : Item) (hi : i ∈ _) := tracks here i (List.mem_cons_of_mem _ hi)
    exact inv.advance adv rfl rfl stopped (workers_moved rfl later (by simp))
  | @observe w now i rest e ch raised here attested h =>
    have touched := tracks here
    refine inv.advance adv rfl rfl stopped (workers_moved rfl
      ⟨touched i List.mem_cons_self, fun items hr j hj => ?_⟩ (by simp))
    cases raised with
    | true => cases hr
    | false =>
      obtain rfl := Option.some.inj hr
      exact touched j (List.mem_cons_of_mem _ hj)
  | @note w f ch rest here =>
    refine inv.advance adv rfl rfl stopped (workers_moved rfl ?_ ?_)
    · cases rest with
      | none => trivial
      | some items => exact fun i hi => adv.touched ((tracks here).2 items rfl i hi)
    · cases rest <;> simp
  | settle here => exact inv.advance adv rfl rfl stopped (workers_moved rfl trivial (by simp))
  | fail w => exact inv.advance adv rfl rfl stopped (workers_moved rfl trivial (by simp))

end Step

section Run

variable {requestId : String} {request : PreviewRequest} {baseline : String → Option Int}
  {created clock nextPollAt : Int}

theorem ids_create : (create requestId request baseline created).items.map Item.failureId =
    request.failureIds := by
  refine List.ext_getElem (by simp [create]) fun n _ _ => ?_
  simp [create]

theorem used_create : used (create requestId request baseline created).items = 0 := by
  refine List.countP_eq_zero.mpr fun i hi => ?_
  obtain ⟨n, hn, rfl⟩ := List.mem_mapIdx.mp hi
  simp [Item.isPending]

theorem DispatchInv.start :
    DispatchInv (start (create requestId request baseline created) clock nextPollAt) := by
  refine ⟨ids_create ▸ request.once, used_create.le, .nil, ?_, ?_, .nil, .nil, ?_,
    fun _ => trivial, ?_, ?_⟩
  all_goals simp [Recovery.start]

/-- The claims of a step are claims of a running plan that no stop has ended. -/
theorem claims_step {s t : Center} {l : Step} (inv : DispatchInv s) (taken : next s l = some t)
    (new : t.claims ≠ s.claims) : s.plan.state = .running ∧ s.stopped = false := by
  cases taken_of_next taken with
  | claim here h =>
    obtain ⟨-, -, running, -⟩ := claim_cases h
    refine ⟨running, Bool.eq_false_iff.mpr fun stopped => ?_⟩
    rw [inv.stopped stopped] at running
    cases running
  | _ => exact absurd rfl new

theorem control_stale {s t : Center} {c : Control} (stale : c.version ≠ s.plan.version)
    (taken : next s (.control c) = some t) : t = s := by
  cases taken_of_next taken with
  | refused h => rfl
  | controlled h => exact absurd (control_cases h).1.symm stale

/-- Nothing has been sent twice, nothing beyond the allowance and nothing too early. -/
structure WithinAuthority (intervalSeconds : Nat) (s : Center) : Prop where
  sent_once : s.sent.Nodup
  claimed_once : (s.claims.map Prod.fst).Nodup
  sent_claimed : ∀ f ∈ s.sent, f ∈ s.claims.map Prod.fst
  allowance : used s.plan.items ≤ s.plan.allowance
  apart : s.claims.Pairwise fun a b => a.2 + seconds intervalSeconds ≤ b.2

/-- A step claims only for a running plan that is not stopped, never takes the version back and
does nothing for a stale control. -/
structure Authorised (s : Center) (l : Step) (t : Center) : Prop where
  claims : t.claims ≠ s.claims → s.plan.state = .running ∧ s.stopped = false
  version : s.plan.version ≤ t.plan.version
  stale : ∀ c, l = .control c → c.version ≠ s.plan.version → t = s

/-- However workers, operators, failures and answers interleave, each item is requested at most
once, within the allowance, while the plan runs and at the plan's pace. -/
theorem recovery_within_authority (requestId : String) (request : PreviewRequest)
    (baseline : String → Option Int) (created clock nextPollAt : Int) (ls : List Step) (s : Center)
    (run : machine.exec
      (start (create requestId request baseline created) clock nextPollAt) ls = some s) :
    WithinAuthority request.intervalSeconds s ∧ ∀ l t, next s l = some t → Authorised s l t := by
  obtain ⟨inv, interval⟩ : DispatchInv s ∧ s.plan.intervalSeconds = request.intervalSeconds := by
    refine Machine.invariant
      (I := fun s => DispatchInv s ∧ s.plan.intervalSeconds = request.intervalSeconds)
      (fun s l t inv taken => ?_) ⟨DispatchInv.start, rfl⟩ run
    exact ⟨inv.1.step taken, (advances_step inv.1 taken).interval.trans inv.2⟩
  refine ⟨⟨inv.sent_once, inv.once, inv.sent_claimed, inv.bound, interval ▸ inv.spaced⟩,
    fun l t taken => ⟨claims_step inv taken, (advances_step inv taken).version, ?_⟩⟩
  rintro c rfl stale
  exact control_stale stale taken

end Run

theorem twoFailures_once : ["a", "b"].Nodup := by decide

def twoFailures : PreviewRequest where
  failureIds := ["a", "b"]
  intervalSeconds := 2
  some_selected := List.cons_ne_nil _ _
  at_most := Nat.le_of_ble_eq_true rfl
  once := twoFailures_once
  interval_pos := Nat.le_of_ble_eq_true rfl
  interval_le := Nat.le_of_ble_eq_true rfl

/-- Two workers take up the same item. One of them claims it, sends its request and dies. -/
def racingWorkers : List Step :=
  [.control (.plain .batch 0), .due 0, .clock (seconds 2), .due 1, .preflight 0 (.ok none),
    .preflight 1 (.ok none), .commit 0, .commit 1, .send 0, .fail 0, .load 1]

theorem recovery_within_authority_of_racingWorkers :
    ∃ s, machine.exec (start (create "r" twoFailures (fun _ => none) 0) 0 0) racingWorkers =
        some s ∧ s.sent = ["a"] ∧ s.claims = [("a", seconds 2)] ∧
      WithinAuthority 2 s ∧ ∀ l t, next s l = some t → Authorised s l t := by
  have given :
      (machine.exec (start (create "r" twoFailures (fun _ => none) 0) 0 0) racingWorkers).map
        (fun s => (s.sent, s.claims)) = some (["a"], [("a", seconds 2)]) := by
    decide +kernel
  obtain ⟨s, run, facts⟩ := Option.map_eq_some_iff.mp given
  obtain ⟨sent, claims⟩ := Prod.mk.inj facts
  exact ⟨s, run, sent, claims, recovery_within_authority "r" twoFailures (fun _ => none) 0 0 0
    racingWorkers s run⟩

end Relayna.Studio.Recovery
