import Mathlib.Data.Int.CardIntervalMod
import Mathlib.Data.List.Basic
/-!
# Round robin

`turns u n`: who has had a turn after `n` turns among `u`, in order. `count_turns` says how often each had
one, so any two differ by at most one at any time (`turns_fair`).
-/
namespace Lib

def turns (u n : Nat) : List Nat := (List.range n).map (· % u)

theorem turns_succ (u n : Nat) : turns u (n + 1) = turns u n ++ [n % u] := by
  simp [turns, List.range_succ]

/-- The turn after that of `n % u`. -/
theorem next_turn (u n : Nat) : (n % u + 1) % u = (n + 1) % u := Nat.mod_add_mod n u 1

theorem count_turns {u p : Nat} (hp : p < u) (n : Nat) :
    (turns u n).count p = n / u + if p < n % u then 1 else 0 := by
  have hcount : (turns u n).count p = n.count (· ≡ p [MOD u]) := by
    induction n with
    | zero => rfl
    | succ n ih =>
      have hiff : n % u = p ↔ n ≡ p [MOD u] := by
        rw [Nat.ModEq, Nat.mod_eq_of_lt hp]
      rw [turns_succ, List.count_append, ih, Nat.count_succ, List.count_singleton]
      simp [hiff]
  rw [hcount, Nat.count_modEq_card n (by omega), Nat.mod_eq_of_lt hp]

theorem turns_fair {u p q : Nat} (hp : p < u) (hq : q < u) (n : Nat) :
    (turns u n).count p ≤ (turns u n).count q + 1 := by
  rw [count_turns hp, count_turns hq]
  split
  · split
    · omega
    · omega
  · omega

end Lib
