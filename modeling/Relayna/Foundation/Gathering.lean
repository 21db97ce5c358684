import Relayna.Foundation.Failing

/-!
# Items that are gathered in named holders

A list of holders takes up items one after another. An item goes into a holder that is there, or a
new holder is put behind the others for it. `Gathered` says what has become of the holders: they
hold what they held and the items, each once, and those that are new have some of the names that
were free to be given.
-/
namespace Gathering

variable {H E ι α σ ε : Type} {name : H → ι} {contents : H → List E}

/-- What has become of the holders `before`. -/
structure Gathered (name : H → ι) (contents : H → List E) (before after : List H)
    (items : List E) (names : List ι) : Prop where
  contents : (after.flatMap contents).Perm (before.flatMap contents ++ items)
  names : ∃ fresh, fresh.Sublist names ∧ after.map name = before.map name ++ fresh

namespace Gathered

variable {before middle after : List H} {items items' : List E} {names names' : List ι} {h h' : H}

theorem refl : Gathered name contents before before [] [] where
  contents := by simp
  names := ⟨[], List.Sublist.refl _, by simp⟩

theorem trans (first : Gathered name contents before middle items names)
    (second : Gathered name contents middle after items' names') :
    Gathered name contents before after (items ++ items') (names ++ names') where
  contents := by
    rw [← List.append_assoc]
    exact second.contents.trans (first.contents.append_right items')
  names := by
    obtain ⟨fresh, sub, eq⟩ := first.names
    obtain ⟨fresh', sub', eq'⟩ := second.names
    exact ⟨fresh ++ fresh', sub.append sub', by rw [eq', eq, List.append_assoc]⟩

/-- An item goes into a holder that is there. -/
theorem of_set {i : Nat} (found : before[i]? = some h) (named : name h' = name h)
    (taken : contents h' = contents h ++ items) :
    Gathered name contents before (before.set i h') items names where
  contents := by
    clear named
    induction before generalizing i with
    | nil => simp at found
    | cons a l ih =>
      cases i with
      | zero =>
        obtain rfl : a = h := by simpa using found
        simp only [List.set_cons_zero, List.flatMap_cons, taken, List.append_assoc]
        exact List.perm_append_comm.append_left _
      | succ i =>
        simp only [List.set_cons_succ, List.flatMap_cons, List.append_assoc]
        exact (ih (by simpa using found)).append_left _
  names := by
    refine ⟨[], List.nil_sublist _, ?_⟩
    rw [List.map_set, named, List.append_nil]
    refine List.ext_getElem? fun j => ?_
    rw [List.getElem?_set]
    by_cases here : i = j
    · subst here
      obtain ⟨inside, -⟩ := List.getElem?_eq_some_iff.mp found
      rw [if_pos rfl, List.length_map, if_pos inside, List.getElem?_map, found, Option.map_some]
    · rw [if_neg here]

theorem of_modify {i : Nat} {give : H → H} (found : before[i]? = some h)
    (named : name (give h) = name h) (taken : contents (give h) = contents h ++ items) :
    Gathered name contents before (before.modify i give) items names := by
  rw [List.modify_eq_set_getElem?, found]
  exact of_set found named taken

/-- A holder is made for an item. -/
theorem of_concat (taken : contents h = items) :
    Gathered name contents before (before ++ [h]) items [name h] where
  contents := by simp [taken]
  names := ⟨[name h], List.Sublist.refl _, by simp⟩

theorem map_subset (g : Gathered name contents before after items names) :
    before.map name ⊆ after.map name := by
  obtain ⟨fresh, -, eq⟩ := g.names
  rw [eq]
  exact List.subset_append_left _ _

theorem sublist (g : Gathered name contents before after items names) :
    (after.map name).Sublist (before.map name ++ names) := by
  obtain ⟨fresh, sub, eq⟩ := g.names
  rw [eq]
  exact sub.append_left _

/-- The holders have different names if the free names differ from each other and from theirs. -/
theorem nodup (g : Gathered name contents before after items names)
    (free : (before.map name ++ names).Nodup) : (after.map name).Nodup :=
  free.sublist g.sublist

/-- A loop that takes up one item after another. -/
theorem foldlM (holders : σ → List H) {f : σ → α → Except ε σ} {item : α → E} {free : α → List ι}
    (step : ∀ {s a s'}, f s a = .ok s' →
      Gathered name contents (holders s) (holders s') [item a] (free a))
    {l : List α} {s s' : σ} (h : l.foldlM f s = .ok s') :
    Gathered name contents (holders s) (holders s') (l.map item) (l.flatMap free) := by
  refine Failing.foldlM_ok
    (I := fun done s' =>
      Gathered name contents (holders s) (holders s') (done.map item) (done.flatMap free))
    (fun sofar stepped => ?_) refl h
  rw [List.map_append, List.flatMap_append, List.flatMap_singleton]
  exact sofar.trans (step stepped)

end Gathered

end Gathering
