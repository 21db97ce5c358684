import Mathlib.Data.List.Nodup
import Mathlib.Data.Option.Basic
import Relayna.Studio.FailedTaskEmails

/-!
# Failed tasks are e-mailed once

Between two runs the pending batch holds failures that were never marked, and whatever is marked
was e-mailed. A run that is cut short keeps the batch as it was, so it must not have marked a
failure of it.
-/
namespace Relayna.Studio.FailedTaskEmails

open Python Contracts Transition

variable {text : Text} {b : Backend} {r : Attempt} {s s' : State}

/-! ## What the log says -/

/-- `mark_notified` has succeeded. -/
def State.Succeeded (s : State) (f : Failure) : Prop := .notified f ∈ s.log

def State.Emailed (s : State) (f : Failure) : Prop := ∃ fs, .email fs ∈ s.log ∧ f ∈ fs

/-- No e-mail contains a failure that was marked before it. -/
def NoneRepeated (log : List Event) : Prop :=
  log.Pairwise fun earlier later => ∀ f fs, earlier = .notified f → later = .email fs → f ∉ fs

structure State.Kept (s : State) : Prop where
  once : NoneRepeated s.log
  marked : ∀ f, s.Succeeded f → f ∈ s.notified
  emailed : ∀ f ∈ s.notified, s.Emailed f

theorem itemKey_eq {item : Item} {f : Failure} (h : failureOf text item = some f) :
    itemKey text item = f.key := by
  obtain ⟨serviceId, hs, h⟩ := Option.bind_eq_some_iff.mp h
  obtain ⟨failureId, hf, rfl⟩ := Option.map_eq_some_iff.mp h
  rw [itemKey, hs, hf]
  rfl

namespace State

theorem emailed_of_log {f : Failure} {es : List Event} (log : s'.log = s.log ++ es)
    (h : s.Emailed f) : s'.Emailed f := by
  obtain ⟨fs, hfs, hf⟩ := h
  exact ⟨fs, log ▸ List.mem_append_left _ hfs, hf⟩

/-- An e-mail about failures that were not marked. -/
theorem Kept.email {items : List Item} (h : s.Kept)
    (new : ∀ item ∈ items, ∀ f, failureOf text item = some f → ¬s.Succeeded f) :
    (s.email text items).Kept where
  once := by
    refine List.pairwise_append.mpr ⟨h.once, List.pairwise_singleton _ _, ?_⟩
    rintro _ marked _ here f fs rfl rfl hf
    obtain rfl := Event.email.inj (List.mem_singleton.mp here)
    obtain ⟨item, hitem, named⟩ := List.mem_filterMap.mp hf
    exact new item hitem f named marked
  marked := by
    intro f succeeded
    rcases List.mem_append.mp succeeded with old | here
    · exact h.marked f old
    · cases List.mem_singleton.mp here
  emailed f hf := emailed_of_log rfl (h.emailed f hf)

theorem succeeded_email {items : List Item} {f : Failure} :
    (s.email text items).Succeeded f ↔ s.Succeeded f := by
  simp [Succeeded, State.email]

/-- What a send leaves. -/
theorem sendEmail_spec {items : List Item} {sent : Bool} (h : s.Kept)
    (new : ∀ item ∈ items, ∀ f, failureOf text item = some f → ¬s.Succeeded f)
    (send : s.sendEmail text r items = (s', sent)) :
    s'.Kept ∧ s'.pending = s.pending ∧ s'.notified = s.notified ∧
      (∀ f, s'.Succeeded f ↔ s.Succeeded f) ∧ (sent = true ↔ r.send items = .returns) ∧
      (sent = true → ∀ item ∈ items, ∀ f, failureOf text item = some f → s'.Emailed f) := by
  have emailed : ∀ item ∈ items, ∀ f, failureOf text item = some f →
      (s.email text items).Emailed f := fun item hitem f named =>
    ⟨_, List.mem_append_right _ (List.mem_singleton_self _),
      List.mem_filterMap.mpr ⟨item, hitem, named⟩⟩
  unfold State.sendEmail at send
  split at send
  · rename_i returns
    obtain ⟨rfl, rfl⟩ := Prod.mk.inj send
    exact ⟨h.email new, rfl, rfl, fun f => succeeded_email, by simp [returns], fun _ => emailed⟩
  · rename_i done raises
    obtain ⟨rfl, rfl⟩ := Prod.mk.inj send
    cases done
    · exact ⟨h, rfl, rfl, fun f => Iff.rfl, by simp [raises], by simp⟩
    · exact ⟨h.email new, rfl, rfl, fun f => succeeded_email, by simp [raises], by simp⟩

/-- What a mark of a failure that was e-mailed leaves. -/
theorem markNotified_spec {f : Failure} {done : Bool} (h : s.Kept) (sent : s.Emailed f)
    (mark : s.markNotified r f = (s', done)) :
    s'.Kept ∧ s'.pending = s.pending ∧ (∀ g ∈ s.notified, g ∈ s'.notified) ∧
      (∀ g, s.Emailed g → s'.Emailed g) ∧ (done = true ↔ r.mark f = .returns) ∧
      (done = true → f ∈ s'.notified) ∧ (∀ g, s.Succeeded g → s'.Succeeded g) ∧
      (∀ g, s'.Succeeded g → s.Succeeded g ∨ done = true ∧ g = f) := by
  have known : ∀ g ∈ f :: s.notified, s.Emailed g := by
    rw [List.forall_mem_cons]
    exact ⟨sent, h.emailed⟩
  unfold State.markNotified at mark
  split at mark
  · rename_i returns
    obtain ⟨rfl, rfl⟩ := Prod.mk.inj mark
    have succeeded (g : Failure) : .notified g ∈ s.log ++ [.notified f] ↔
        s.Succeeded g ∨ g = f := by
      simp [Succeeded]
    have emailed (g : Failure) (hg : s.Emailed g) : State.Emailed
        { s with notified := f :: s.notified, log := s.log ++ [.notified f] } g :=
      emailed_of_log rfl hg
    refine ⟨⟨?_, fun g hg => ?_, fun g hg => emailed g (known g hg)⟩, rfl,
      fun g hg => List.mem_cons_of_mem _ hg, emailed, by simp [returns],
      fun _ => List.mem_cons_self, fun g hg => (succeeded g).mpr (Or.inl hg), fun g hg => ?_⟩
    · refine List.pairwise_append.mpr ⟨h.once, List.pairwise_singleton _ _, ?_⟩
      rintro _ _ _ here _ _ - rfl
      cases List.mem_singleton.mp here
    · rcases (succeeded g).mp hg with old | rfl
      · exact List.mem_cons_of_mem _ (h.marked g old)
      · exact List.mem_cons_self
    · rcases (succeeded g).mp hg with old | here
      · exact Or.inl old
      · exact Or.inr ⟨rfl, here⟩
  · rename_i took raises
    obtain ⟨rfl, rfl⟩ := Prod.mk.inj mark
    cases took
    · exact ⟨h, rfl, fun g hg => hg, fun g hg => hg, by simp [raises], by simp, fun g hg => hg,
        fun g hg => Or.inl hg⟩
    · exact ⟨⟨h.once, fun g hg => List.mem_cons_of_mem _ (h.marked g hg), known⟩, rfl,
        fun g hg => List.mem_cons_of_mem _ hg, fun g hg => hg, by simp [raises], by simp,
        fun g hg => hg, fun g hg => Or.inl hg⟩

end State

/-! ## The loops -/

/-- Failures of their own that were not marked. -/
structure Waiting (text : Text) (s : State) (items : List Item) : Prop where
  keys : (items.map (itemKey text)).Nodup
  unmarked : ∀ item ∈ items, ∃ f, failureOf text item = some f ∧ ¬s.Succeeded f

namespace Waiting

variable {items : List Item}

theorem nil : Waiting text s [] := ⟨.nil, List.forall_mem_nil _⟩

theorem not_succeeded (h : Waiting text s items) :
    ∀ item ∈ items, ∀ f, failureOf text item = some f → ¬s.Succeeded f := by
  intro item hitem f named
  obtain ⟨g, here, unmarked⟩ := h.unmarked item hitem
  exact Option.some.inj (here.symm.trans named) ▸ unmarked

theorem sublist {left : List Item} (h : Waiting text s items) (sub : left.Sublist items) :
    Waiting text s left :=
  ⟨h.keys.sublist (sub.map _), fun item hitem => h.unmarked item (sub.subset hitem)⟩

theorem of_succeeded (h : Waiting text s items)
    (same : ∀ item ∈ items, ∀ f, failureOf text item = some f → s'.Succeeded f → s.Succeeded f) :
    Waiting text s' items := by
  refine ⟨h.keys, fun item hitem => ?_⟩
  obtain ⟨f, named, unmarked⟩ := h.unmarked item hitem
  exact ⟨f, named, fun succeeded => unmarked (same item hitem f named succeeded)⟩

/-- The first failure is none of the others. -/
theorem ne_of_mem {item other : Item} {f g : Failure} (h : Waiting text s (item :: items))
    (named : failureOf text item = some f) (ho : other ∈ items)
    (here : failureOf text other = some g) : g ≠ f := by
  rintro rfl
  have keys := (List.nodup_cons.mp h.keys).1
  rw [itemKey_eq named, ← itemKey_eq here] at keys
  exact keys (List.mem_map_of_mem ho)

end Waiting

/-- What the loop of the immediate e-mails leaves. -/
theorem sendEach_spec {items remaining : List Item} {sent : Nat}
    {result : Option (List Item × Nat)} (kept : s.Kept) (waiting : Waiting text s items)
    (h : State.sendEach text r s items remaining sent = (s', result)) :
    s'.Kept ∧ s'.pending = s.pending ∧ (∀ f ∈ s.notified, f ∈ s'.notified) ∧
      (∀ g, s'.Succeeded g → s.Succeeded g ∨ ∃ item ∈ items, failureOf text item = some g) ∧
      ∀ remaining' sent', result = some (remaining', sent') →
        ∃ left, left.Sublist items ∧ remaining' = remaining ++ left ∧ Waiting text s' left ∧
          ∀ item ∈ items, ∀ f, failureOf text item = some f → item ∈ left ∨ f ∈ s'.notified := by
  induction items generalizing s remaining sent with
  | nil =>
    obtain ⟨rfl, rfl⟩ := Prod.mk.inj h
    refine ⟨kept, rfl, fun f hf => hf, fun g hg => Or.inl hg, fun remaining' sent' same => ?_⟩
    obtain ⟨rfl, rfl⟩ := Prod.mk.inj (Option.some.inj same)
    exact ⟨[], List.Sublist.refl _, (List.append_nil _).symm, .nil, List.forall_mem_nil _⟩
  | cons item items ih =>
    obtain ⟨f, named, unmarked⟩ := waiting.unmarked item List.mem_cons_self
    have rest := waiting.sublist (List.sublist_cons_self item items)
    have only : ∀ i ∈ [item], ∀ g, failureOf text i = some g → ¬s.Succeeded g :=
      (waiting.sublist (List.singleton_sublist.mpr List.mem_cons_self)).not_succeeded
    simp only [State.sendEach, named] at h
    split at h
    · rename_i s₁ send
      obtain ⟨kept₁, pending₁, notified₁, same₁, -, -⟩ := State.sendEmail_spec kept only send
      obtain ⟨kept', pending', notified', new, finish⟩ :=
        ih kept₁ (rest.of_succeeded fun _ _ g _ => (same₁ g).mp) h
      have unchanged (g : Failure) (hg : s'.Succeeded g) :
          s.Succeeded g ∨ ∃ i ∈ items, failureOf text i = some g := by
        rw [← same₁ g]
        exact new g hg
      refine ⟨kept', pending'.trans pending₁, fun g hg => notified' g (notified₁ ▸ hg),
        fun g hg => ?_, fun remaining' sent' same => ?_⟩
      · exact (unchanged g hg).imp_right fun ⟨i, hi, here⟩ => ⟨i, List.mem_cons_of_mem _ hi, here⟩
      · obtain ⟨left, sub, all, left_waiting, settled⟩ := finish remaining' sent' same
        have still : ¬s'.Succeeded f := by
          intro succeeded
          rcases unchanged f succeeded with old | ⟨i, hi, here⟩
          · exact unmarked old
          · exact waiting.ne_of_mem named hi here rfl
        refine ⟨item :: left, sub.cons_cons item, by simp [all], ⟨?_, ?_⟩, fun i hi g here => ?_⟩
        · exact waiting.keys.sublist ((sub.cons_cons item).map _)
        · rw [List.forall_mem_cons]
          exact ⟨⟨f, named, still⟩, left_waiting.unmarked⟩
        · rcases List.mem_cons.mp hi with rfl | hi
          · exact Or.inl List.mem_cons_self
          · exact (settled i hi g here).imp_left (List.mem_cons_of_mem _)
    · rename_i s₁ send
      obtain ⟨kept₁, pending₁, notified₁, same₁, -, emailed⟩ := State.sendEmail_spec kept only send
      have sentOut := emailed rfl item (List.mem_singleton_self item) f named
      split at h
      · rename_i s₂ mark
        obtain ⟨kept₂, pending₂, notified₂, -, -, marked, -, new₂⟩ :=
          State.markNotified_spec kept₁ sentOut mark
        have others : ∀ i ∈ items, ∀ g, failureOf text i = some g → s₂.Succeeded g →
            s.Succeeded g := by
          intro i hi g here succeeded
          rcases new₂ g succeeded with old | ⟨-, same⟩
          · exact (same₁ g).mp old
          · exact absurd same (waiting.ne_of_mem named hi here)
        obtain ⟨kept', pending', notified', new, finish⟩ := ih kept₂ (rest.of_succeeded others) h
        refine ⟨kept', pending'.trans (pending₂.trans pending₁),
          fun g hg => notified' g (notified₂ g (notified₁ ▸ hg)), fun g hg => ?_,
          fun remaining' sent' same => ?_⟩
        · rcases new g hg with before | ⟨i, hi, here⟩
          · rcases new₂ g before with old | ⟨-, rfl⟩
            · exact Or.inl ((same₁ g).mp old)
            · exact Or.inr ⟨item, List.mem_cons_self, named⟩
          · exact Or.inr ⟨i, List.mem_cons_of_mem _ hi, here⟩
        · obtain ⟨left, sub, all, left_waiting, settled⟩ := finish remaining' sent' same
          refine ⟨left, sub.cons item, all, left_waiting, fun i hi g here => ?_⟩
          rcases List.mem_cons.mp hi with rfl | hi
          · obtain rfl := Option.some.inj (named.symm.trans here)
            exact Or.inr (notified' f (marked rfl))
          · exact settled i hi g here
      · rename_i s₂ mark
        obtain ⟨kept₂, pending₂, notified₂, -, -, -, -, new₂⟩ :=
          State.markNotified_spec kept₁ sentOut mark
        obtain ⟨rfl, rfl⟩ := Prod.mk.inj h
        refine ⟨kept₂, pending₂.trans pending₁, fun g hg => notified₂ g (notified₁ ▸ hg),
          fun g hg => ?_, by simp⟩
        rcases new₂ g hg with old | ⟨done, -⟩
        · exact Or.inl ((same₁ g).mp old)
        · cases done

/-- What the loop of the marks leaves. -/
theorem markEach_spec {items : List Item} {done : Bool} (kept : s.Kept)
    (emailed : ∀ item ∈ items, ∀ f, failureOf text item = some f → s.Emailed f)
    (h : State.markEach text r s items = (s', done)) :
    s'.Kept ∧ s'.pending = s.pending ∧ (∀ f ∈ s.notified, f ∈ s'.notified) ∧
      (done = true → ∀ item ∈ items, ∀ f, failureOf text item = some f → f ∈ s'.notified) := by
  induction items generalizing s with
  | nil =>
    obtain ⟨rfl, rfl⟩ := Prod.mk.inj h
    exact ⟨kept, rfl, fun f hf => hf, fun _ => List.forall_mem_nil _⟩
  | cons item items ih =>
    rw [List.forall_mem_cons] at emailed
    unfold State.markEach at h
    split at h
    · rename_i unnamed
      obtain ⟨kept', pending', notified', all⟩ := ih kept emailed.2 h
      refine ⟨kept', pending', notified', fun d => ?_⟩
      rw [List.forall_mem_cons]
      refine ⟨fun f named => ?_, all d⟩
      rw [unnamed] at named
      cases named
    · rename_i f named
      split at h
      · rename_i s₁ mark
        obtain ⟨kept₁, pending₁, notified₁, emailed₁, -, marked, -, -⟩ :=
          State.markNotified_spec kept (emailed.1 f named) mark
        obtain ⟨kept', pending', notified', all⟩ :=
          ih kept₁ (fun i hi g here => emailed₁ g (emailed.2 i hi g here)) h
        refine ⟨kept', pending'.trans pending₁, fun g hg => notified' g (notified₁ g hg),
          fun d => ?_⟩
        rw [List.forall_mem_cons]
        refine ⟨fun g here => ?_, all d⟩
        obtain rfl := Option.some.inj (named.symm.trans here)
        exact notified' f (marked rfl)
      · rename_i s₁ mark
        obtain ⟨kept₁, pending₁, notified₁, -⟩ :=
          State.markNotified_spec kept (emailed.1 f named) mark
        obtain ⟨rfl, rfl⟩ := Prod.mk.inj h
        exact ⟨kept₁, pending₁, notified₁, by simp⟩

/-! ## Runs that are cut short -/

/-- A call raises, and keeps the stored batch as it was, after a failure of this batch was marked.
`marked` says that one was. -/
def spoils (text : Text) (r : Attempt) (stored : List Failure) (sent : Item → Bool) :
    Bool → List Item → Bool
  | marked, [] => marked && !r.write.done
  | marked, item :: items =>
    match failureOf text item with
    | none => spoils text r stored sent marked items
    | some f =>
      if !sent item then spoils text r stored sent marked items
      else if r.mark f ≠ .returns then marked
      else spoils text r stored sent (marked || f ∈ stored) items

section Spoils

variable {stored : List Failure} {items : List Item} {marked : Bool}

theorem spoils_unsent {sent : Item → Bool} {item : Item} (unsent : sent item = false) :
    spoils text r stored sent marked (item :: items) =
      spoils text r stored sent marked items := by
  cases named : failureOf text item <;> simp [spoils, named, unsent]

theorem spoils_raised {sent : Item → Bool} {item : Item} {f : Failure}
    (named : failureOf text item = some f) (isSent : sent item = true)
    (raised : r.mark f ≠ .returns) : spoils text r stored sent marked (item :: items) = marked := by
  simp [spoils, named, isSent, raised]

theorem spoils_marked {sent : Item → Bool} {item : Item} {f : Failure}
    (named : failureOf text item = some f) (isSent : sent item = true)
    (returns : r.mark f = .returns) : spoils text r stored sent marked (item :: items) =
      spoils text r stored sent (marked || decide (f ∈ stored)) items := by
  simp [spoils, named, isSent, returns]

/-- A step of a loop that is not spoiled: the rest starts without a mark of a stored failure. -/
theorem unmarked_of_rest {f : Failure} {s₁ : State}
    (new : ∀ g, s₁.Succeeded g → s.Succeeded g ∨ g = f)
    (rest : (marked || decide (f ∈ stored)) = false ∧
      ∀ g ∈ stored, s'.Succeeded g → s₁.Succeeded g) :
    marked = false ∧ ∀ g ∈ stored, s'.Succeeded g → s.Succeeded g := by
  rw [Bool.or_eq_false_iff, decide_eq_false_iff_not] at rest
  refine ⟨rest.1.1, fun g hg succeeded => ?_⟩
  rcases new g (rest.2 g hg succeeded) with old | rfl
  · exact old
  · exact absurd hg rest.1.2

theorem sendEach_unspoiled {remaining : List Item} {sent : Nat}
    {result : Option (List Item × Nat)} (kept : s.Kept) (waiting : Waiting text s items)
    (h : State.sendEach text r s items remaining sent = (s', result))
    (fine : spoils text r stored (fun item => r.send [item] = .returns) marked items = false)
    (old : result = none ∨ r.write.done = false) :
    marked = false ∧ ∀ f ∈ stored, s'.Succeeded f → s.Succeeded f := by
  induction items generalizing s remaining sent marked with
  | nil =>
    obtain ⟨rfl, rfl⟩ := Prod.mk.inj h
    refine ⟨?_, fun f _ hf => hf⟩
    simpa [spoils, old.resolve_left (by simp)] using fine
  | cons item items ih =>
    obtain ⟨f, named, unmarked⟩ := waiting.unmarked item List.mem_cons_self
    have rest := waiting.sublist (List.sublist_cons_self item items)
    have only : ∀ i ∈ [item], ∀ g, failureOf text i = some g → ¬s.Succeeded g :=
      (waiting.sublist (List.singleton_sublist.mpr List.mem_cons_self)).not_succeeded
    simp only [State.sendEach, named] at h
    split at h
    · rename_i s₁ send
      obtain ⟨kept₁, -, -, same₁, sent₁, -⟩ := State.sendEmail_spec kept only send
      have failed : r.send [item] ≠ .returns := fun returns => by simpa using sent₁.mpr returns
      rw [spoils_unsent (decide_eq_false failed)] at fine
      have later := ih kept₁ (rest.of_succeeded fun _ _ g _ => (same₁ g).mp) h fine
      exact ⟨later.1, fun g hg succeeded => (same₁ g).mp (later.2 g hg succeeded)⟩
    · rename_i s₁ send
      obtain ⟨kept₁, -, -, same₁, sent₁, emailed⟩ := State.sendEmail_spec kept only send
      have sentOut := emailed rfl item (List.mem_singleton_self item) f named
      have isSent : decide (r.send [item] = .returns) = true := decide_eq_true (sent₁.mp rfl)
      split at h
      · rename_i s₂ mark
        obtain ⟨kept₂, -, -, -, returns, -, -, new₂⟩ :=
          State.markNotified_spec kept₁ sentOut mark
        rw [spoils_marked named isSent (returns.mp rfl)] at fine
        have new (g : Failure) (hg : s₂.Succeeded g) : s.Succeeded g ∨ g = f :=
          (new₂ g hg).imp (same₁ g).mp And.right
        refine unmarked_of_rest new (ih kept₂ (rest.of_succeeded ?_) h fine)
        intro i hi g here succeeded
        exact (new g succeeded).resolve_right (waiting.ne_of_mem named hi here)
      · rename_i s₂ mark
        obtain ⟨-, -, -, -, returns, -, -, new₂⟩ := State.markNotified_spec kept₁ sentOut mark
        have raised : r.mark f ≠ .returns := fun back => by simpa using returns.mpr back
        rw [spoils_raised named isSent raised] at fine
        obtain ⟨rfl, rfl⟩ := Prod.mk.inj h
        refine ⟨fine, fun g _ succeeded => ?_⟩
        rcases new₂ g succeeded with before | ⟨done, -⟩
        · exact (same₁ g).mp before
        · cases done

theorem markEach_unspoiled {done : Bool} (kept : s.Kept)
    (emailed : ∀ item ∈ items, ∀ f, failureOf text item = some f → s.Emailed f)
    (h : State.markEach text r s items = (s', done))
    (fine : spoils text r stored (fun _ => true) marked items = false)
    (old : done = false ∨ r.write.done = false) :
    marked = false ∧ ∀ f ∈ stored, s'.Succeeded f → s.Succeeded f := by
  induction items generalizing s marked with
  | nil =>
    obtain ⟨rfl, rfl⟩ := Prod.mk.inj h
    refine ⟨?_, fun f _ hf => hf⟩
    simpa [spoils, old.resolve_left (by simp)] using fine
  | cons item items ih =>
    rw [List.forall_mem_cons] at emailed
    unfold State.markEach at h
    split at h
    · rename_i unnamed
      simp only [spoils, unnamed] at fine
      exact ih kept emailed.2 h fine
    · rename_i f named
      split at h
      · rename_i s₁ mark
        obtain ⟨kept₁, -, -, emailed₁, returns, -, -, new⟩ :=
          State.markNotified_spec kept (emailed.1 f named) mark
        rw [spoils_marked named rfl (returns.mp rfl)] at fine
        exact unmarked_of_rest (fun g hg => (new g hg).imp_right And.right)
          (ih kept₁ (fun i hi g here => emailed₁ g (emailed.2 i hi g here)) h fine)
      · rename_i s₁ mark
        obtain ⟨-, -, -, -, returns, -, -, new⟩ :=
          State.markNotified_spec kept (emailed.1 f named) mark
        have raised : r.mark f ≠ .returns := fun back => by simpa using returns.mpr back
        rw [spoils_raised named rfl raised] at fine
        obtain ⟨rfl, rfl⟩ := Prod.mk.inj h
        refine ⟨fine, fun g _ succeeded => (new g succeeded).resolve_right ?_⟩
        rintro ⟨done, -⟩
        cases done

end Spoils

/-! ## What is queued -/

structure Queued (text : Text) (b : Backend) (s : State) (pending items out : List Item) :
    Prop where
  waiting : Waiting text s out
  keeps : ∀ item ∈ pending, item ∈ out
  listed : ∀ item ∈ items, ∀ f, failureOf text item = some f → s.isNotified b f = false →
    f.key ∈ out.map (itemKey text)
  only : ∀ item ∈ out, item ∈ pending ∨ item ∈ items ∧
    ∀ f, failureOf text item = some f → s.isNotified b f = false

theorem queue_spec {pending items out : List Item} (kept : s.Kept)
    (waiting : Waiting text s pending) (h : s.queue text b r pending items = some out) :
    Queued text b s pending items out := by
  induction items generalizing pending with
  | nil =>
    obtain rfl := Option.some.inj h
    exact ⟨waiting, fun i hi => hi, List.forall_mem_nil _, fun i hi => Or.inl hi⟩
  | cons item items ih =>
    unfold State.queue at h
    -- The item is not queued, and the rest of the loop has its own.
    have passed (rest : s.queue text b r pending items = some out)
        (here : ∀ f, failureOf text item = some f → s.isNotified b f = false →
          f.key ∈ pending.map (itemKey text)) : Queued text b s pending (item :: items) out := by
      obtain ⟨waiting', keeps, all, only⟩ := ih waiting rest
      refine ⟨waiting', keeps, ?_, fun o ho => ?_⟩
      · rw [List.forall_mem_cons]
        refine ⟨fun f named fresh => ?_, all⟩
        exact List.map_subset _ keeps (here f named fresh)
      · exact (only o ho).imp_right fun ⟨old, new⟩ => ⟨List.mem_cons_of_mem item old, new⟩
    split at h
    · rename_i unnamed
      exact passed h fun f named => by rw [unnamed] at named; cases named
    · rename_i f named
      split at h
      · cases h
      · split at h
        · rename_i known
          refine passed h fun g here fresh => ?_
          obtain rfl := Option.some.inj (named.symm.trans here)
          rw [known] at fresh
          cases fresh
        · rename_i unknown
          rw [Bool.not_eq_true] at unknown
          split at h
          · rename_i there
            refine passed h fun g here _ => ?_
            obtain rfl := Option.some.inj (named.symm.trans here)
            exact itemKey_eq named ▸ there
          · rename_i new
            have unmarked : ¬s.Succeeded f := by
              intro succeeded
              have marked := kept.marked f succeeded
              cases b <;> simp [State.isNotified] at unknown
              · exact unknown f marked rfl
              · exact unknown marked
            have longer : Waiting text s (pending ++ [item]) := by
              refine ⟨?_, ?_⟩
              · rw [List.map_append, List.map_singleton, List.nodup_append]
                refine ⟨waiting.keys, List.nodup_singleton _, fun k hk k' hk' same => ?_⟩
                exact new (List.mem_singleton.mp hk' ▸ same ▸ hk)
              · rw [List.forall_mem_append, List.forall_mem_singleton]
                exact ⟨waiting.unmarked, f, named, unmarked⟩
            obtain ⟨waiting', keeps, all, only⟩ := ih longer h
            rw [List.forall_mem_append, List.forall_mem_singleton] at keeps
            refine ⟨waiting', keeps.1, ?_, fun o ho => ?_⟩
            · rw [List.forall_mem_cons]
              refine ⟨fun g here _ => ?_, all⟩
              exact itemKey_eq here ▸ List.mem_map_of_mem keeps.2
            · rcases only o ho with old | ⟨old, fresh⟩
              · rcases List.mem_append.mp old with old | here
                · exact Or.inl old
                · obtain rfl := List.mem_singleton.mp here
                  refine Or.inr ⟨List.mem_cons_self, fun g here => ?_⟩
                  exact Option.some.inj (named.symm.trans here) ▸ unknown
              · exact Or.inr ⟨List.mem_cons_of_mem _ old, fresh⟩

/-! ## Conditions on a run -/

def Batch.itemsOf (batch : Option Batch) : List Item := (batch.map Batch.items).getD []

/-- The failures of the stored batch. -/
def State.stored (text : Text) (s : State) : List Failure :=
  (Batch.itemsOf s.pending).filterMap (failureOf text)

/-- The failures that a run lists. -/
def Attempt.listed (text : Text) (r : Attempt) : List Failure :=
  ((listItems text r.pages []).getD []).filterMap (failureOf text)

def State.fresh (text : Text) (b : Backend) (r : Attempt) (s : State) : List Failure :=
  (r.listed text).filter (!s.isNotified b ·)

/-- No failure that is listed has the joined ids of another one that is waiting, listed, or, on
Redis, marked. -/
def Apart (text : Text) (b : Backend) (s : State) (r : Attempt) : Prop :=
  (∀ f ∈ r.listed text, s.isNotified b f = true → f ∈ s.notified) ∧
    ∀ f ∈ s.fresh text b r, ∀ g ∈ s.stored text ++ s.fresh text b r, g.key = f.key → g = f

/-- No call raises after a failure of the stored batch was marked. -/
def Unspoiled (text : Text) (b : Backend) (s : State) (r : Attempt) (settings : RuntimeSettings) :
    Prop :=
  ∀ batch ∈ s.gather text b r,
    (settings.batchWaitSeconds = 0 → spoils text r (s.stored text)
      (fun item => r.send [item] = .returns) false batch.items = false) ∧
    (settings.batchWaitSeconds ≠ 0 → State.waits r settings batch = false →
      r.send (State.validItems text batch.items) = .returns →
        spoils text r (s.stored text) (fun _ => true) false
          (State.validItems text batch.items) = false)

def Good (text : Text) (b : Backend) (s : State) (r : Attempt) : Prop :=
  ∀ settings ∈ s.entered b r, Apart text b s r ∧ Unspoiled text b s r settings

instance : Decidable (Apart text b s r) := inferInstanceAs (Decidable (_ ∧ _))

instance {settings : RuntimeSettings} : Decidable (Unspoiled text b s r settings) :=
  inferInstanceAs (Decidable (∀ batch ∈ s.gather text b r, _ ∧ _))

instance : Decidable (Good text b s r) :=
  inferInstanceAs (Decidable (∀ settings ∈ s.entered b r, _ ∧ _))

/-- Marked after an e-mail, or still pending. -/
def Settled (text : Text) (s : State) (f : Failure) : Prop :=
  f ∈ s.notified ∧ s.Emailed f ∨ f ∈ s.stored text

/-! ## One run -/

structure Sound (text : Text) (s : State) : Prop where
  kept : s.Kept
  waiting : Waiting text s (Batch.itemsOf s.pending)

theorem sound_of_write {batch : Option Batch} {sent : Nat} {result : Option Nat} (kept : s.Kept)
    (new : Waiting text s (Batch.itemsOf batch))
    (old : r.write.done = false → Waiting text s (Batch.itemsOf s.pending))
    (h : s.writePending r batch sent = (s', result)) :
    Sound text s' ∧ s'.notified = s.notified ∧ (∀ n, result = some n → s'.pending = batch) := by
  have kept' (batch : Option Batch) : State.Kept { s with pending := batch } :=
    ⟨kept.once, kept.marked, kept.emailed⟩
  have new' : Waiting text { s with pending := batch } (Batch.itemsOf batch) :=
    ⟨new.keys, new.unmarked⟩
  unfold State.writePending at h
  split at h
  · obtain ⟨rfl, rfl⟩ := Prod.mk.inj h
    exact ⟨⟨kept' batch, new'⟩, rfl, fun _ _ => rfl⟩
  · rename_i done raises
    obtain ⟨rfl, rfl⟩ := Prod.mk.inj h
    cases done
    · exact ⟨⟨kept, old (by rw [raises]; rfl)⟩, rfl, by simp⟩
    · exact ⟨⟨kept' batch, new'⟩, rfl, by simp⟩

/-- What the run has to see to in the batch. -/
theorem settled_of_batch {items : List Item} (sound : Sound text s') (apart : Apart text b s r)
    (known : ∀ f ∈ s.notified, f ∈ s'.notified)
    (queued : Queued text b s (Batch.itemsOf s.pending) ((listItems text r.pages []).getD []) items)
    (all : ∀ item ∈ items, ∀ f, failureOf text item = some f →
      item ∈ Batch.itemsOf s'.pending ∨ f ∈ s'.notified) :
    ∀ f ∈ r.listed text, Settled text s' f := by
  have marked {f : Failure} (hf : f ∈ s'.notified) : Settled text s' f :=
    Or.inl ⟨hf, sound.kept.emailed f hf⟩
  intro f hf
  cases fresh : s.isNotified b f with
  | true => exact marked (known f (apart.1 f hf fresh))
  | false =>
    have isFresh : f ∈ s.fresh text b r := List.mem_filter.mpr ⟨hf, by rw [fresh]; rfl⟩
    obtain ⟨item, hitem, named⟩ := List.mem_filterMap.mp hf
    obtain ⟨other, ho, key⟩ := List.mem_map.mp (queued.listed item hitem f named fresh)
    obtain ⟨g, there, -⟩ := queued.waiting.unmarked other ho
    rw [itemKey_eq there] at key
    have hg : g ∈ s.stored text ++ s.fresh text b r := by
      rcases queued.only other ho with old | ⟨listed, new⟩
      · exact List.mem_append_left _ (List.mem_filterMap.mpr ⟨other, old, there⟩)
      · refine List.mem_append_right _ (List.mem_filter.mpr ⟨?_, by rw [new g there]; rfl⟩)
        exact List.mem_filterMap.mpr ⟨other, listed, there⟩
    obtain rfl := apart.2 f isFresh g hg key
    rcases all other ho g there with pending | done
    · exact Or.inr (List.mem_filterMap.mpr ⟨other, pending, there⟩)
    · exact marked done

theorem gather_spec {batch : Batch} (sound : Sound text s)
    (h : s.gather text b r = some batch) : Queued text b s (Batch.itemsOf s.pending)
      ((listItems text r.pages []).getD []) batch.items := by
  unfold State.gather at h
  split at h
  · cases h
  · obtain ⟨items, gathered, rfl⟩ := Option.map_eq_some_iff.mp h
    obtain ⟨listed, read, queue⟩ := Option.bind_eq_some_iff.mp gathered
    have start : (s.pending.getD ⟨r.loadedAt, []⟩).items = Batch.itemsOf s.pending := by
      cases s.pending <;> rfl
    rw [start] at queue
    rw [read]
    exact queue_spec sound.kept sound.waiting queue

theorem validItems_eq {items : List Item} (waiting : Waiting text s items) :
    State.validItems text items = items := by
  refine List.filter_eq_self.mpr fun item hitem => ?_
  obtain ⟨f, named, -⟩ := waiting.unmarked item hitem
  rw [named]
  rfl

/-- What the e-mails about a batch leave: every failure of it is pending or marked. -/
structure Done (text : Text) (s : State) (items : List Item) (s' : State) (result : Option Nat) :
    Prop where
  sound : Sound text s'
  known : ∀ f ∈ s.notified, f ∈ s'.notified
  all : ∀ n, result = some n → ∀ item ∈ items, ∀ f, failureOf text item = some f →
    item ∈ Batch.itemsOf s'.pending ∨ f ∈ s'.notified

/-- The stored batch still waits when none of it was marked. -/
theorem Sound.still_waiting (sound : Sound text s) (pending : s'.pending = s.pending)
    (same : ∀ f ∈ s.stored text, s'.Succeeded f → s.Succeeded f) :
    Waiting text s' (Batch.itemsOf s'.pending) := by
  rw [pending]
  refine sound.waiting.of_succeeded fun item hitem f named => same f ?_
  exact List.mem_filterMap.mpr ⟨item, hitem, named⟩

theorem sendImmediateNotifications_done {items : List Item} {result : Option Nat}
    (sound : Sound text s) (waiting : Waiting text s items)
    (fine : spoils text r (s.stored text) (fun item => r.send [item] = .returns) false items =
      false)
    (h : s.sendImmediateNotifications text r items = (s', result)) :
    Done text s items s' result := by
  unfold State.sendImmediateNotifications at h
  split at h
  · rename_i s₁ loop
    obtain ⟨rfl, rfl⟩ := Prod.mk.inj h
    obtain ⟨kept, pending, known, -⟩ := sendEach_spec sound.kept waiting loop
    have same := (sendEach_unspoiled sound.kept waiting loop fine (Or.inl rfl)).2
    exact ⟨⟨kept, sound.still_waiting pending same⟩, known, by simp⟩
  · rename_i s₁ remaining sent loop
    obtain ⟨kept, pending, known, -, finish⟩ := sendEach_spec sound.kept waiting loop
    obtain ⟨left, -, rfl, left_waiting, all⟩ := finish remaining sent rfl
    have old (lost : r.write.done = false) : Waiting text s₁ (Batch.itemsOf s₁.pending) :=
      sound.still_waiting pending
        (sendEach_unspoiled sound.kept waiting loop fine (Or.inr lost)).2
    -- Both writes store what is left.
    have written {batch : Option Batch} (items_left : Batch.itemsOf batch = remaining)
        (h : s₁.writePending r batch sent = (s', result)) : Done text s items s' result := by
      obtain ⟨sound', notified, stored⟩ := sound_of_write kept (items_left ▸ left_waiting) old h
      refine ⟨sound', fun f hf => notified ▸ known f hf, fun n hn item hitem f named => ?_⟩
      rw [stored n hn, items_left, notified]
      exact all item hitem f named
    split at h
    · rename_i none_left
      have cleared : Batch.itemsOf none = remaining := (List.isEmpty_iff.mp none_left).symm
      exact written cleared h
    · exact written rfl h

theorem sendBatchNotification_done {items : List Item} {result : Option Nat}
    (sound : Sound text s) (waiting : Waiting text s items)
    (fine : r.send items = .returns →
      spoils text r (s.stored text) (fun _ => true) false items = false)
    (h : s.sendBatchNotification text r items = (s', result)) :
    Done text s items s' result := by
  unfold State.sendBatchNotification at h
  rw [validItems_eq waiting] at h
  dsimp only at h
  split at h
  · rename_i empty
    obtain rfl := List.isEmpty_iff.mp empty
    obtain ⟨sound', notified, -⟩ := sound_of_write sound.kept .nil (fun _ => sound.waiting) h
    exact ⟨sound', fun f hf => notified ▸ hf, fun _ _ => List.forall_mem_nil _⟩
  · split at h
    · rename_i s₁ send
      obtain ⟨kept, pending, notified₁, same, -, -⟩ :=
        State.sendEmail_spec sound.kept waiting.not_succeeded send
      have later : Waiting text s₁ items := waiting.of_succeeded fun _ _ g _ => (same g).mp
      obtain ⟨sound', notified, stored⟩ := sound_of_write kept later
        (fun _ => sound.still_waiting pending fun g _ => (same g).mp) h
      refine ⟨sound', fun f hf => ?_, fun n hn item hitem _ _ => Or.inl ?_⟩
      · rw [notified, notified₁]
        exact hf
      · rw [stored n hn]
        exact hitem
    · rename_i s₁ send
      obtain ⟨kept₁, pending₁, notified₁, same, sent, emailed⟩ :=
        State.sendEmail_spec sound.kept waiting.not_succeeded send
      split at h
      · rename_i s₂ loop
        obtain ⟨kept, pending, known, all⟩ := markEach_spec kept₁ (emailed rfl) loop
        have old (lost : r.write.done = false) : Waiting text s₂ (Batch.itemsOf s₂.pending) := by
          have unmarked := (markEach_unspoiled kept₁ (emailed rfl) loop (fine (sent.mp rfl))
            (Or.inr lost)).2
          exact sound.still_waiting (pending.trans pending₁)
            fun g hg succeeded => (same g).mp (unmarked g hg succeeded)
        obtain ⟨sound', notified, stored⟩ := sound_of_write kept .nil old h
        refine ⟨sound', fun f hf => ?_, fun n _ item hitem f named => Or.inr ?_⟩
        · rw [notified]
          exact known f (notified₁ ▸ hf)
        · rw [notified]
          exact all rfl item hitem f named
      · rename_i s₂ loop
        obtain ⟨rfl, rfl⟩ := Prod.mk.inj h
        obtain ⟨kept, pending, known, -⟩ := markEach_spec kept₁ (emailed rfl) loop
        have unmarked := (markEach_unspoiled kept₁ (emailed rfl) loop (fine (sent.mp rfl))
          (Or.inl rfl)).2
        refine ⟨⟨kept, sound.still_waiting (pending.trans pending₁) fun g hg succeeded => ?_⟩,
          fun f hf => known f (notified₁ ▸ hf), by simp⟩
        exact (same g).mp (unmarked g hg succeeded)

theorem notifyNew_spec {settings : RuntimeSettings} {result : Option Nat} (sound : Sound text s)
    (apart : Apart text b s r) (unspoiled : Unspoiled text b s r settings)
    (h : s.notifyNew text b r settings = (s', result)) :
    Sound text s' ∧ ∀ n, result = some n → ∀ f ∈ r.listed text, Settled text s' f := by
  unfold State.notifyNew at h
  split at h
  · obtain ⟨rfl, rfl⟩ := Prod.mk.inj h
    exact ⟨sound, by simp⟩
  · rename_i batch gathered
    have queued := gather_spec sound gathered
    have fine := unspoiled batch gathered
    suffices done : Done text s batch.items s' result from
      ⟨done.sound, fun n hn => settled_of_batch done.sound apart done.known queued (done.all n hn)⟩
    have write {stored : Option Batch} (same : Batch.itemsOf stored = batch.items)
        (h : s.writePending r stored 0 = (s', result)) : Done text s batch.items s' result := by
      obtain ⟨sound', notified, written⟩ := sound_of_write sound.kept (same ▸ queued.waiting)
        (fun _ => sound.waiting) h
      refine ⟨sound', fun f hf => notified ▸ hf, fun n hn item hitem _ _ => Or.inl ?_⟩
      rw [written n hn, same]
      exact hitem
    split at h
    · rename_i empty
      have cleared : Batch.itemsOf none = batch.items := (List.isEmpty_iff.mp empty).symm
      exact write cleared h
    · split at h
      · rename_i immediate
        exact sendImmediateNotifications_done sound queued.waiting (fine.1 immediate) h
      · rename_i batched
        split at h
        · exact write rfl h
        · rename_i ready
          rw [Bool.not_eq_true] at ready
          have fine := fine.2 batched ready
          rw [validItems_eq queued.waiting] at fine
          exact sendBatchNotification_done sound queued.waiting fine h

theorem Sound.locked (sound : Sound text s) (locked : Bool) :
    Sound text { s with locked := locked } :=
  ⟨⟨sound.kept.once, sound.kept.marked, sound.kept.emailed⟩,
    ⟨sound.waiting.keys, sound.waiting.unmarked⟩⟩

/-- The lock plays no part in what is gathered. -/
theorem gather_locked (locked : Bool) :
    { s with locked := locked }.gather text b r = s.gather text b r := by
  have queue (pending items : List Item) :
      { s with locked := locked }.queue text b r pending items =
        s.queue text b r pending items := by
    induction items generalizing pending with
    | nil => rfl
    | cons item items ih =>
      simp only [State.queue, ih]
      rfl
  unfold State.gather
  simp only [funext (queue _)]

theorem notify_spec {result : Option Nat} (sound : Sound text s) (good : Good text b s r)
    (h : s.notify text b r = (s', result)) :
    Sound text s' ∧ ∀ n, result = some n → (s.entered b r).isSome = true →
      ∀ f ∈ r.listed text, Settled text s' f := by
  unfold State.notify at h
  split at h
  · obtain ⟨rfl, rfl⟩ := Prod.mk.inj h
    exact ⟨sound, by simp⟩
  · rename_i settings read
    split at h
    · rename_i disabled
      obtain ⟨rfl, rfl⟩ := Prod.mk.inj h
      refine ⟨sound, fun _ _ entered => ?_⟩
      simp_all [State.entered]
    · rename_i enabled
      rw [Bool.not_eq_true', Bool.not_eq_false] at enabled
      split at h
      · have entered : s.entered .postgres r = some settings := by
          simp [State.entered, read, enabled]
        obtain ⟨apart, unspoiled⟩ := good settings entered
        obtain ⟨sound', settled⟩ := notifyNew_spec sound apart unspoiled h
        exact ⟨sound', fun n hn _ => settled n hn⟩
      · split at h
        · rename_i raised
          obtain ⟨rfl, rfl⟩ := Prod.mk.inj h
          exact ⟨sound.locked _, by simp⟩
        · rename_i returned
          split at h
          · rename_i held
            obtain ⟨rfl, rfl⟩ := Prod.mk.inj h
            refine ⟨sound, fun _ _ entered => ?_⟩
            simp [State.entered, read, returned, held] at entered
          · rename_i free
            have entered : s.entered .redis r = some settings := by
              simp [State.entered, read, enabled, returned, free]
            obtain ⟨apart, unspoiled⟩ := good settings entered
            have unspoiled : Unspoiled text .redis { s with locked := true } r settings := by
              intro batch gathered
              rw [gather_locked] at gathered
              exact unspoiled batch gathered
            split at h
            · rename_i run _
              obtain ⟨rfl, rfl⟩ := Prod.mk.inj h
              obtain ⟨sound', settled⟩ := notifyNew_spec (sound.locked true) apart unspoiled run
              exact ⟨sound'.locked false, fun n hn _ => settled n hn⟩
            · rename_i run _
              obtain ⟨rfl, rfl⟩ := Prod.mk.inj h
              obtain ⟨sound', -⟩ := notifyNew_spec (sound.locked true) apart unspoiled run
              exact ⟨sound'.locked _, by simp⟩

/-! ## Every sequence of runs -/

def runs (text : Text) (b : Backend) : Machine State Attempt where
  next s r := some (s.notify text b r).1

theorem sound_of_runs {rs : List Attempt} (good : (runs text b).Along (Good text b) {} rs)
    (reached : (runs text b).exec {} rs = some s) : Sound text s := by
  refine Machine.invariant_along (fun s r s' sound good next => ?_) ?_ good reached
  · obtain rfl := Option.some.inj next
    exact (notify_spec sound good rfl).1
  · exact ⟨⟨.nil, fun _ none => absurd none List.not_mem_nil, List.forall_mem_nil _⟩, .nil⟩

theorem emails_once_none_lost (text : Text) (b : Backend) (rs : List Attempt) (r : Attempt)
    (s : State) (reached : (runs text b).exec {} rs = some s)
    (good : (runs text b).Along (Good text b) {} (rs ++ [r])) :
    NoneRepeated (s.notify text b r).1.log ∧
      ∀ n, (s.notify text b r).2 = some n → (s.entered b r).isSome = true →
        ∀ f ∈ r.listed text, Settled text (s.notify text b r).1 f := by
  obtain ⟨before, last⟩ := good.of_append reached
  obtain ⟨sound, settled⟩ := notify_spec (sound_of_runs before reached) last.1 rfl
  exact ⟨sound.kept.once, settled⟩

/-! ## A batch of two failures -/

def failedItem (failureId : String) : Item :=
  [("service_id", .str "svc"), ("failure_id", .str failureId)]

def twoFailed : List (Option (Fields Value)) :=
  [some [("items", .list [.dict (failedItem "a"), .dict (failedItem "b")])]]

/-- The batch is saved and is to wait for a minute. -/
def saved : Attempt := { settings := some ⟨true, 60⟩, pages := twoFailed }

/-- A minute later. -/
def emailed : Attempt := { saved with checkedAt := 60000000 }

/-- The second mark raises. -/
def cutShort : Attempt :=
  { emailed with mark := fun f => if f.failureId = "b" then .raises false else .returns }

/-- The failures were reviewed, and e-mails are no longer batched. -/
def reviewed : Attempt :=
  { settings := some ⟨true, 0⟩, pages := [some [("items", .list [])]] }

theorem emailed_batch_settled :
    (∃ s, (runs plainText .redis).exec {} [saved] = some s ∧
      NoneRepeated (s.notify plainText .redis emailed).1.log ∧
      (s.notify plainText .redis emailed).2 = some 2 ∧
      ∀ f ∈ emailed.listed plainText, Settled plainText (s.notify plainText .redis emailed).1 f) ∧
    emailed.listed plainText = [⟨"svc", "a"⟩, ⟨"svc", "b"⟩] := by
  refine ⟨⟨_, rfl, ?_⟩, by decide +kernel⟩
  obtain ⟨once, settled⟩ := emails_once_none_lost plainText .redis [saved] emailed _ rfl
    (by decide +kernel)
  have sent : ((State.notify plainText .redis saved {}).1.notify plainText .redis emailed).2 =
      some 2 := by decide +kernel
  exact ⟨once, sent, settled 2 sent (by decide +kernel)⟩

theorem marked_failure_emailed_again :
    ∃ s, (runs plainText .postgres).exec {} [saved, cutShort, reviewed] = some s ∧
      s.log = [.email [⟨"svc", "a"⟩, ⟨"svc", "b"⟩], .notified ⟨"svc", "a"⟩,
        .email [⟨"svc", "a"⟩], .notified ⟨"svc", "a"⟩,
        .email [⟨"svc", "b"⟩], .notified ⟨"svc", "b"⟩] ∧
      ¬NoneRepeated s.log := by
  have log : (((State.notify plainText .postgres saved {}).1.notify plainText .postgres
      cutShort).1.notify plainText .postgres reviewed).1.log =
      [.email [⟨"svc", "a"⟩, ⟨"svc", "b"⟩], .notified ⟨"svc", "a"⟩,
        .email [⟨"svc", "a"⟩], .notified ⟨"svc", "a"⟩,
        .email [⟨"svc", "b"⟩], .notified ⟨"svc", "b"⟩] := by
    decide +kernel
  refine ⟨_, rfl, log, fun once => ?_⟩
  rw [log] at once
  simp [NoneRepeated] at once

end Relayna.Studio.FailedTaskEmails
