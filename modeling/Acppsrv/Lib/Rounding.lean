import Mathlib.Tactic.Linarith
/-!
# Rounding to `p` significant bits, ties to even

`nearest d n` is the integer nearest to `n / d`, `roundTo p n` the number with `p` significant bits nearest to `n`.
A binary floating point number is an integer multiple of the smallest subnormal one, and in these units every result of
an addition or of a multiplication by an integer is rounded by `roundTo`, subnormal ones included: they have
fewer than `p` bits and are not changed (`roundTo_exact`).

* `roundTo_mono`: rounding is monotone.
* `roundTo_upper`, `roundTo_lower`: what is rounded off is at most `n / 2^p`.
-/
namespace Lib

/-- The integer nearest to `n / d`, the even one of two. -/
def nearest (d n : Nat) : Nat :=
  if d < 2 * (n % d) ∨ 2 * (n % d) = d ∧ n / d % 2 = 1 then n / d + 1 else n / d

section
variable {d n m : Nat}

theorem nearest_mul (hd : 0 < d) (k : Nat) : nearest d (d * k) = k := by
  unfold nearest
  rw [Nat.mul_mod_right, Nat.mul_div_cancel_left k hd, if_neg]
  rintro (h | ⟨h, -⟩)
  · omega
  · omega

theorem nearest_lower (hd : 0 < d) (n : Nat) : 2 * n ≤ 2 * (d * nearest d n) + d := by
  have hdiv := Nat.div_add_mod n d
  have hlt := Nat.mod_lt n hd
  unfold nearest
  split
  · rw [Nat.mul_add, Nat.mul_one]
    omega
  · rename_i h
    omega

theorem nearest_upper (d n : Nat) : 2 * (d * nearest d n) ≤ 2 * n + d := by
  have hdiv := Nat.div_add_mod n d
  unfold nearest
  split
  · rename_i h
    rw [Nat.mul_add, Nat.mul_one]
    omega
  · omega

theorem nearest_mono (d : Nat) (h : n ≤ m) : nearest d n ≤ nearest d m := by
  have hdiv := Nat.div_le_div_right (c := d) h
  have hle (k : Nat) : k / d ≤ nearest d k ∧ nearest d k ≤ k / d + 1 := by
    unfold nearest
    split
    · omega
    · omega
  by_cases hlt : n / d < m / d
  · have hn := (hle n).2
    have hm := (hle m).1
    omega
  · -- the same quotient: the remainder decides
    have heq : n / d = m / d := by omega
    have hmod : n % d ≤ m % d := by
      have hn := Nat.div_add_mod n d
      have hm := Nat.div_add_mod m d
      rw [heq] at hn
      omega
    unfold nearest
    rw [heq]
    split
    · rename_i hn
      rw [if_pos]
      rcases hn with hn | ⟨hn, hodd⟩
      · exact Or.inl (by omega)
      · by_cases hr : 2 * (m % d) = d
        · exact Or.inr ⟨hr, hodd⟩
        · exact Or.inl (by omega)
    · split
      · omega
      · omega

end

/-! ## Significant bits -/

/-- The bits of `n` beyond `p`. -/
def excess (p n : Nat) : Nat := n.log2 + 1 - p

def roundTo (p n : Nat) : Nat := 2 ^ excess p n * nearest (2 ^ excess p n) n

section
variable {p n m : Nat}

theorem roundTo_exact (hp : 0 < p) (h : n < 2 ^ p) : roundTo p n = n := by
  have hex : excess p n = 0 := by
    rcases Nat.eq_zero_or_pos n with rfl | hn
    · rw [excess, Nat.log2_zero]
      omega
    · have hlog := (Nat.log2_lt (Nat.ne_of_gt hn)).2 h
      rw [excess]
      omega
  have hone := nearest_mul Nat.one_pos n
  rw [Nat.one_mul] at hone
  rw [roundTo, hex, Nat.pow_zero, hone, Nat.one_mul]

/-- A number rounded keeps its size, or is the next power of two. -/
theorem roundTo_bounds (hp : 0 < p) (h : 0 < n) : 2 ^ n.log2 ≤ roundTo p n ∧ roundTo p n ≤ 2 ^ (n.log2 + 1) := by
  have hpow (k : Nat) (hk : excess p n ≤ k) : 2 ^ excess p n * nearest (2 ^ excess p n) (2 ^ k) = 2 ^ k := by
    have hsplit : 2 ^ k = 2 ^ excess p n * 2 ^ (k - excess p n) := by
      rw [← Nat.pow_add]
      congr 1
      omega
    rw [hsplit, nearest_mul (Nat.two_pow_pos _)]
  have hlo : excess p n ≤ n.log2 := by
    unfold excess
    omega
  constructor
  · calc 2 ^ n.log2 = 2 ^ excess p n * nearest (2 ^ excess p n) (2 ^ n.log2) := (hpow _ hlo).symm
      _ ≤ roundTo p n := Nat.mul_le_mul_left _ (nearest_mono _ (Nat.log2_self_le (Nat.ne_of_gt h)))
  · calc roundTo p n ≤ 2 ^ excess p n * nearest (2 ^ excess p n) (2 ^ (n.log2 + 1)) :=
          Nat.mul_le_mul_left _ (nearest_mono _ Nat.lt_log2_self.le)
      _ = 2 ^ (n.log2 + 1) := hpow _ (by omega)

theorem roundTo_pos (hp : 0 < p) (h : 0 < n) : 0 < roundTo p n :=
  Nat.lt_of_lt_of_le (Nat.two_pow_pos _) (roundTo_bounds hp h).1

theorem roundTo_mono (hp : 0 < p) (h : n ≤ m) : roundTo p n ≤ roundTo p m := by
  rcases Nat.eq_zero_or_pos n with rfl | hn
  · rw [roundTo_exact hp (Nat.two_pow_pos p)]
    exact Nat.zero_le _
  · have hm : 0 < m := Nat.lt_of_lt_of_le hn h
    by_cases hlog : n.log2 = m.log2
    · have hex : excess p n = excess p m := by rw [excess, excess, hlog]
      rw [roundTo, roundTo, hex]
      exact Nat.mul_le_mul_left _ (nearest_mono _ h)
    · have hle : n.log2 ≤ m.log2 := (Nat.le_log2 (Nat.ne_of_gt hm)).2 (Nat.le_trans (Nat.log2_self_le (Nat.ne_of_gt hn)) h)
      calc roundTo p n ≤ 2 ^ (n.log2 + 1) := (roundTo_bounds hp hn).2
        _ ≤ 2 ^ m.log2 := Nat.pow_le_pow_right (by decide) (by omega)
        _ ≤ roundTo p m := (roundTo_bounds hp hm).1

/-- A unit in the last place. -/
theorem pow_excess_le (h : 2 ^ p ≤ n) : 2 ^ p * 2 ^ excess p n ≤ 2 * n := by
  have hn : n ≠ 0 := by
    have := Nat.two_pow_pos p
    omega
  have hp : p ≤ n.log2 := (Nat.le_log2 hn).2 h
  calc 2 ^ p * 2 ^ excess p n = 2 * 2 ^ n.log2 := by
        rw [← Nat.pow_add, ← Nat.pow_succ']
        congr 1
        unfold excess
        omega
    _ ≤ 2 * n := Nat.mul_le_mul_left 2 (Nat.log2_self_le hn)

theorem roundTo_upper (hp : 0 < p) (n : Nat) : 2 ^ p * roundTo p n ≤ (2 ^ p + 1) * n := by
  by_cases h : n < 2 ^ p
  · rw [roundTo_exact hp h]
    exact Nat.mul_le_mul_right n (Nat.le_succ _)
  · have hup := nearest_upper (2 ^ excess p n) n
    have hex := pow_excess_le (Nat.le_of_not_lt h)
    have hmul := Nat.mul_le_mul_left (2 ^ p) hup
    unfold roundTo
    linarith

theorem roundTo_lower (hp : 0 < p) (n : Nat) : 2 ^ p * n ≤ 2 ^ p * roundTo p n + n := by
  by_cases h : n < 2 ^ p
  · rw [roundTo_exact hp h]
    exact Nat.le_add_right _ _
  · have hlow := nearest_lower (Nat.two_pow_pos (excess p n)) n
    have hex := pow_excess_le (Nat.le_of_not_lt h)
    have hmul := Nat.mul_le_mul_left (2 ^ p) hlow
    unfold roundTo
    linarith

end

end Lib
