import Relayna.Foundation.Python

/-!
# Redis keys and lists

`redis_key` builds a readable key with a cluster hash tag. For one prefix and slot the key
determines the last segment, which is what deduplication by key rests on. The list commands
are those the stores use, with Redis's inclusive and possibly negative indices. A command
takes effect and replies, or raises and takes none.
-/
namespace Relayna.Storage

open Python

/-- `redis_key(prefix, slot, *segments)`. The tag is the start of a SHA-256 digest. -/
def redisKey (x : Text) (keyPrefix slot : String) (segments : List String) : String :=
  let tag := String.ofList ((x.sha256 (keyPrefix ++ "\x1f" ++ slot)).toList.take 16)
  "\x7brelayna:" ++ tag ++ "\x7d:" ++ keyPrefix ++ ":" ++ ":".intercalate segments

theorem redisKey_last_injective (x : Text) (keyPrefix slot a b : String) {s t : String}
    (h : redisKey x keyPrefix slot [a, b, s] = redisKey x keyPrefix slot [a, b, t]) : s = t := by
  have split (u : String) : redisKey x keyPrefix slot [a, b, u] =
      redisKey x keyPrefix slot [a, b, ""] ++ u := by
    simp [redisKey, String.intercalate_cons_cons, String.append_assoc]
  rw [split s, split t] at h
  exact (String.append_right_inj _).mp h

theorem redisKey_second_injective (x : Text) (keyPrefix slot a : String) {s t : String}
    (h : redisKey x keyPrefix slot [a, s] = redisKey x keyPrefix slot [a, t]) : s = t := by
  have split (u : String) : redisKey x keyPrefix slot [a, u] =
      redisKey x keyPrefix slot [a, ""] ++ u := by
    simp [redisKey, String.intercalate_cons_cons, String.append_assoc]
  rw [split s, split t] at h
  exact (String.append_right_inj _).mp h

/-- `LRANGE key start stop`. -/
def lrange {α : Type} (l : List α) (start stop : Int) : List α :=
  let first := if start < 0 then max 0 (l.length + start) else start
  let last := if stop < 0 then l.length + stop else stop
  (l.drop first.toNat).take (last + 1 - first).toNat

/-- `LTRIM key start stop` leaves what `LRANGE` would return. -/
def ltrim {α : Type} (l : List α) (start stop : Int) : List α := lrange l start stop

@[simp] theorem lrange_zero {α : Type} (l : List α) {stop : Int} (h : 0 ≤ stop) :
    lrange l 0 stop = l.take (stop + 1).toNat := by
  simp [lrange, not_lt.mpr h]

/-- How an awaited Redis command ends. `except Exception` catches only the second way. -/
inductive Reply where
  | ok
  | exception
  | cancelled
  deriving DecidableEq, Repr

end Relayna.Storage
