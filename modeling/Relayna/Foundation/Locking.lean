import Relayna.Foundation.Transition

/-!
# Transactions that hold locks

Transactions are listed and each holds some locks at the stage it is at. `Exclusive` says that no
two of them hold the same lock. It is kept by a transaction that starts without a lock and by one
that takes the locks it did not have from nobody, so what a lock guards is changed by its holder
only.
-/
namespace Locking

variable {Tx Lock : Type*} (holds : Tx → Lock → Prop)

/-- No lock has two holders. -/
def Exclusive (txs : List Tx) : Prop :=
  ∀ (n m : Nat) (a b : Tx) (lock : Lock), txs[n]? = some a → txs[m]? = some b →
    holds a lock → holds b lock → n = m

variable {holds} {txs : List Tx} {n : Nat} {tx tx' : Tx}

theorem exclusive_nil : Exclusive holds [] := by
  intro n m a b lock ha
  simp at ha

theorem Exclusive.append (h : Exclusive holds txs) (idle : ∀ lock, ¬ holds tx lock) :
    Exclusive holds (txs ++ [tx]) := by
  intro n m a b lock hn hm ha hb
  obtain hn | rfl := Transition.append_some_cases hn
  · obtain hm | rfl := Transition.append_some_cases hm
    · exact h n m a b lock hn hm ha hb
    · exact absurd hb (idle lock)
  · exact absurd ha (idle lock)

/-- One transaction moves on. A lock that it takes is free. -/
theorem Exclusive.set (h : Exclusive holds txs) (hn : txs[n]? = some tx)
    (taken : ∀ lock, holds tx' lock → holds tx lock ∨ ∀ other ∈ txs, ¬ holds other lock) :
    Exclusive holds (txs.set n tx') := by
  have apart : ∀ {m : Nat} {other : Tx} {lock : Lock}, txs[m]? = some other →
      holds tx' lock → holds other lock → m = n := by
    intro m other lock hm mine theirs
    obtain held | free := taken lock mine
    · exact h m n other tx lock hm hn theirs held
    · exact absurd theirs (free other (List.mem_of_getElem? hm))
  intro m k a b lock hm hk ha hb
  obtain ⟨rfl, rfl⟩ | ⟨-, hm'⟩ := Transition.set_some_cases hm
  · obtain ⟨rfl, -⟩ | ⟨-, hk'⟩ := Transition.set_some_cases hk
    · rfl
    · exact (apart hk' ha hb).symm
  · obtain ⟨rfl, rfl⟩ | ⟨-, hk'⟩ := Transition.set_some_cases hk
    · exact apart hm' hb ha
    · exact h m k a b lock hm' hk' ha hb

/-- What one transaction has locked, another has not. -/
theorem Exclusive.not_holds {m : Nat} {other : Tx} {lock : Lock} (h : Exclusive holds txs)
    (hn : txs[n]? = some tx) (hm : txs[m]? = some other) (ne : m ≠ n) (mine : holds tx lock) :
    ¬ holds other lock :=
  fun theirs => ne (h m n other tx lock hm hn theirs mine)

end Locking
