import Mathlib.Data.Nat.Cast.Order.Field
import Mathlib.Tactic.FieldSimp
import Acppsrv.Config.Configuration
import Acppsrv.Lib.Rounding
/-!
# Times of the configuration: `configuration::get_time` (configuration.cpp:47-59)

A `float` is a binary32 number of IEEE 754, rounded to nearest. Its magnitude is counted in units of 2^-149, the
smallest subnormal number, so a product with an integer is rounded by `roundTo 24`.

`get_time` is as good as a `float` can be (`get_time`): it is empty exactly for what is not positive, and what it
returns is off by the rounding of one product and at most a nanosecond. So a positive time is never "unlimited",
but one below a nanosecond is 0.
-/
namespace Acppsrv.Config
open Lib

inductive Number where
  | nan
  | inf (neg : Bool)
  | finite (neg : Bool) (units : Nat)
  deriving DecidableEq, Repr

/-- 1, in units. -/
def unit : Nat := 2 ^ 149

/-- The units of a biased exponent and a fraction; exponent 0 is for subnormal numbers. -/
def magnitude (exponent fraction : Nat) : Nat :=
  if exponent = 0 then fraction else (2 ^ 23 + fraction) * 2 ^ (exponent - 1)

def Single.number (t : Single) : Number :=
  let neg := decide (0x80000000 ≤ t.bits)
  let exponent := t.bits.toNat / 2 ^ 23 % 2 ^ 8
  let fraction := t.bits.toNat % 2 ^ 23
  if exponent = 255 then if fraction = 0 then .inf neg else .nan
  else .finite neg (magnitude exponent fraction)

/-- `t *= k` for an integer `k`, which must be a `float`. -/
def Number.mul (k : Nat) : Number → Number
  | .nan => .nan
  | .inf neg => .inf neg
  | .finite neg u => if roundTo 24 (u * k) < 2 ^ 128 * unit then .finite neg (roundTo 24 (u * k)) else .inf neg

/-- `t > 0`. -/
def Number.gtZero : Number → Bool
  | .finite false u => decide (0 < u)
  | .inf false => true
  | _ => false

/-- `1e9F` -/
def giga : Nat := 1000000000

/-- The largest `std::chrono::nanoseconds::rep`. -/
def maxRep : Nat := 2 ^ 63 - 1

/-- In nanoseconds. `float(max)` is 2^63. -/
def getTime (t : Single) : Option Nat :=
  match t.number.mul giga with
  | .finite false u => if 0 < u then some (if u < 2 ^ 63 * unit then u / unit else maxRep) else none
  | .inf false => some maxRep
  | _ => none

/-- The comparison `a <= b`. -/
def Number.le : Number → Number → Prop
  | .nan, _ => False
  | _, .nan => False
  | .inf true, _ => True
  | _, .inf false => True
  | .inf false, _ => False
  | _, .inf true => False
  | .finite true u, .finite true v => v ≤ u
  | .finite true _, .finite false _ => True
  | .finite false u, .finite true v => u = 0 ∧ v = 0
  | .finite false u, .finite false v => u ≤ v

/-- The exact time, in nanoseconds. -/
def nanoseconds (u : Nat) : ℚ := u * giga / unit

/-- `r` is the time of `u` units, up to 2^63 ns, but for the rounding of the product and of the conversion. -/
def Close (r u : Nat) : Prop :=
  (r : ℚ) ≤ min (nanoseconds u) (2 ^ 63) + nanoseconds u / 2 ^ 24 ∧
    min (nanoseconds u) (2 ^ 63) ≤ r + nanoseconds u / 2 ^ 24 + 1

/-! ## Signs -/

/-- What `validate` does not reject is positive, a zero or a NaN. -/
theorem number_of_not_ltZero {t : Single} (h : t.ltZero = false) :
    t.number = .nan ∨ t.number = .inf false ∨ (∃ neg, t.number = .finite neg 0) ∨
      ∃ u, 0 < u ∧ t.number = .finite false u := by
  have hbits : ¬(0x80000000 < t.bits.toNat ∧ t.bits.toNat ≤ 0xFF800000) := of_decide_eq_false h
  have hsize := t.bits.toNat_lt
  by_cases hneg : (0x80000000 : UInt32) ≤ t.bits
  · have hneg' : 0x80000000 ≤ t.bits.toNat := hneg
    unfold Single.number
    by_cases hzero : t.bits.toNat = 0x80000000
    · refine Or.inr (Or.inr (Or.inl ⟨true, ?_⟩))
      simp [hzero, hneg, magnitude]
    · -- beyond -infinity there are only NaNs
      have hexp : t.bits.toNat / 2 ^ 23 % 2 ^ 8 = 255 := by omega
      have hfrac : t.bits.toNat % 2 ^ 23 ≠ 0 := by omega
      exact Or.inl (by simp only [if_pos hexp, if_neg hfrac])
  · unfold Single.number
    simp only [hneg, decide_false]
    by_cases hexp : t.bits.toNat / 2 ^ 23 % 2 ^ 8 = 255
    · rw [if_pos hexp]
      split_ifs
      · exact Or.inr (Or.inl rfl)
      · exact Or.inl rfl
    · rw [if_neg hexp]
      rcases Nat.eq_zero_or_pos (magnitude (t.bits.toNat / 2 ^ 23 % 2 ^ 8) (t.bits.toNat % 2 ^ 23)) with hz | hpos
      · exact Or.inr (Or.inr (Or.inl ⟨false, by rw [hz]⟩))
      · exact Or.inr (Or.inr (Or.inr ⟨_, hpos, rfl⟩))

/-! ## Positive times -/

/-- What `get_time` makes of a positive finite time. -/
def rounded (u : Nat) : Nat := if roundTo 24 (u * giga) < 2 ^ 63 * unit then roundTo 24 (u * giga) / unit else maxRep

theorem unit_pos : 0 < unit := Nat.two_pow_pos _

theorem getTime_finite {t : Single} {u : Nat} (h : t.number = .finite false u) (hu : 0 < u) :
    getTime t = some (rounded u) := by
  have hpos : 0 < roundTo 24 (u * giga) := roundTo_pos (by decide) (Nat.mul_pos hu (by decide))
  unfold getTime rounded
  rw [h, Number.mul]
  by_cases hfin : roundTo 24 (u * giga) < 2 ^ 128 * unit
  · rw [if_pos hfin]
    exact if_pos hpos
  · have hmono : 2 ^ 63 * unit ≤ 2 ^ 128 * unit := Nat.mul_le_mul_right unit (by decide)
    rw [if_neg hfin, if_neg]
    exact fun hlt => hfin (Nat.lt_of_lt_of_le hlt hmono)

/-- `get_time` is empty exactly for what is not positive. -/
theorem getTime_none (t : Single) : getTime t = none ↔ t.number.gtZero = false := by
  cases h : t.number with
  | nan =>
    have hnan : getTime t = none := by
      unfold getTime
      rw [h]
      rfl
    exact iff_of_true hnan rfl
  | inf neg =>
    unfold getTime
    rw [h]
    cases neg with
    | false => exact iff_of_false (fun hsome => nomatch hsome) (fun htrue => nomatch htrue)
    | true => exact iff_of_true rfl rfl
  | finite neg u =>
    cases neg with
    | false =>
      rcases Nat.eq_zero_or_pos u with rfl | hu
      · have hzero : roundTo 24 (0 * giga) = 0 := by decide
        unfold getTime
        rw [h, Number.mul, hzero, if_pos (by decide)]
        exact iff_of_true rfl rfl
      · rw [getTime_finite h hu]
        exact iff_of_false (fun hsome => nomatch hsome) (by simp [Number.gtZero, hu])
    | true =>
      unfold getTime
      rw [h, Number.mul]
      refine iff_of_true ?_ rfl
      split_ifs
      · rfl
      · rfl

theorem giga_nanoseconds (n : Nat) : ((n * giga : Nat) : ℚ) = nanoseconds n * unit := by
  have hunit : (unit : ℚ) ≠ 0 := Nat.cast_ne_zero.2 (Nat.ne_of_gt unit_pos)
  rw [nanoseconds, div_mul_cancel₀ _ hunit, Nat.cast_mul]

/-- The product is off by its 24th bit. -/
theorem product_close (u : Nat) :
    (roundTo 24 (u * giga) : ℚ) / unit ≤ nanoseconds u + nanoseconds u / 2 ^ 24 ∧
      nanoseconds u ≤ (roundTo 24 (u * giga) : ℚ) / unit + nanoseconds u / 2 ^ 24 := by
  have hunit : (0 : ℚ) < unit := Nat.cast_pos.2 unit_pos
  have hup : (2 ^ 24 : ℚ) * roundTo 24 (u * giga) ≤ (2 ^ 24 + 1) * (nanoseconds u * unit) := by
    rw [← giga_nanoseconds]
    exact_mod_cast roundTo_upper (p := 24) (by decide) (u * giga)
  have hlow : (2 ^ 24 : ℚ) * (nanoseconds u * unit) ≤ 2 ^ 24 * roundTo 24 (u * giga) + nanoseconds u * unit := by
    rw [← giga_nanoseconds]
    exact_mod_cast roundTo_lower (p := 24) (by decide) (u * giga)
  constructor
  · rw [div_le_iff₀ hunit]
    linarith
  · have hle : (nanoseconds u - nanoseconds u / 2 ^ 24) ≤ (roundTo 24 (u * giga) : ℚ) / unit := by
      rw [le_div_iff₀ hunit]
      linarith
    linarith

theorem roundTo_max : roundTo 24 (2 ^ 63 * unit) = 2 ^ 63 * unit := by
  decide +kernel

theorem rounded_close (u : Nat) : Close (rounded u) u := by
  have hunit : (0 : ℚ) < unit := Nat.cast_pos.2 unit_pos
  have hns : 0 ≤ nanoseconds u := div_nonneg (mul_nonneg (Nat.cast_nonneg _) (Nat.cast_nonneg _)) hunit.le
  have hrest : 0 ≤ nanoseconds u / 2 ^ 24 := div_nonneg hns (by positivity)
  obtain ⟨hup, hlow⟩ := product_close u
  unfold rounded
  by_cases hlt : roundTo 24 (u * giga) < 2 ^ 63 * unit
  · -- rounding does not go past 2^63, so the time was below it
    have htime : nanoseconds u ≤ 2 ^ 63 := by
      by_contra hge
      have hprod : 2 ^ 63 * unit ≤ u * giga := by
        have hmul : (2 ^ 63 : ℚ) * unit ≤ nanoseconds u * unit :=
          mul_le_mul_of_nonneg_right (not_le.1 hge).le hunit.le
        rw [← giga_nanoseconds] at hmul
        exact_mod_cast hmul
      have hround := roundTo_mono (p := 24) (by decide) hprod
      rw [roundTo_max] at hround
      omega
    have hdiv : ((roundTo 24 (u * giga) / unit : Nat) : ℚ) ≤ (roundTo 24 (u * giga) : ℚ) / unit := Nat.cast_div_le
    have hrem : (roundTo 24 (u * giga) : ℚ) / unit ≤ (roundTo 24 (u * giga) / unit : Nat) + 1 := by
      rw [div_le_iff₀ hunit]
      have hrem := (Nat.lt_div_mul_add unit_pos (a := roundTo 24 (u * giga))).le
      rw [← Nat.succ_mul] at hrem
      exact_mod_cast hrem
    rw [if_pos hlt, Close, min_eq_left htime]
    constructor
    · exact hdiv.trans hup
    · linarith
  · have hge : (2 ^ 63 : ℚ) ≤ (roundTo 24 (u * giga) : ℚ) / unit := by
      rw [le_div_iff₀ hunit]
      exact_mod_cast Nat.le_of_not_lt hlt
    have hmax : (maxRep : ℚ) = 2 ^ 63 - 1 := by
      norm_num [maxRep]
    rw [if_neg hlt, Close, hmax]
    constructor
    · have hmin : 2 ^ 63 - nanoseconds u / 2 ^ 24 ≤ min (nanoseconds u) (2 ^ 63) := by
        refine le_min ?_ ?_
        · linarith
        · exact sub_le_self _ hrest
      linarith
    · calc min (nanoseconds u) (2 ^ 63) ≤ 2 ^ 63 := min_le_right _ _
        _ ≤ 2 ^ 63 - 1 + nanoseconds u / 2 ^ 24 + 1 := by linarith

theorem rounded_le (u : Nat) : rounded u ≤ maxRep := by
  unfold rounded
  split_ifs with hu
  · have hdiv : roundTo 24 (u * giga) / unit < 2 ^ 63 := (Nat.div_lt_iff_lt_mul unit_pos).2 hu
    exact Nat.le_pred_of_lt hdiv
  · exact Nat.le_refl _

theorem rounded_mono {u v : Nat} (h : u ≤ v) : rounded u ≤ rounded v := by
  have hround := roundTo_mono (p := 24) (by decide) (Nat.mul_le_mul_right giga h)
  unfold rounded
  by_cases hv : roundTo 24 (v * giga) < 2 ^ 63 * unit
  · rw [if_pos (Nat.lt_of_le_of_lt hround hv), if_pos hv]
    exact Nat.div_le_div_right hround
  · have hle := rounded_le u
    unfold rounded at hle
    rw [if_neg hv]
    exact hle

/-- What `get_time` returns, it makes of a positive time. -/
theorem getTime_some {t : Single} {r : Nat} (h : getTime t = some r) :
    t.number = .inf false ∧ r = maxRep ∨ ∃ u, 0 < u ∧ t.number = .finite false u ∧ r = rounded u := by
  have hpos : t.number.gtZero = true := by
    by_contra hno
    rw [(getTime_none t).2 (Bool.eq_false_iff.2 hno)] at h
    cases h
  cases hnum : t.number with
  | nan =>
    rw [hnum] at hpos
    cases hpos
  | inf neg =>
    rw [hnum] at hpos
    cases neg with
    | true => cases hpos
    | false =>
      unfold getTime at h
      rw [hnum] at h
      exact Or.inl ⟨rfl, (Option.some.inj h).symm⟩
  | finite neg u =>
    rw [hnum] at hpos
    cases neg with
    | true => cases hpos
    | false =>
      have hu : 0 < u := of_decide_eq_true hpos
      rw [getTime_finite hnum hu] at h
      exact Or.inr ⟨u, hu, rfl, (Option.some.inj h).symm⟩

theorem getTime_mono {t t' : Single} {r : Nat} (hle : t.number.le t'.number) (h : getTime t = some r) :
    ∃ r', getTime t' = some r' ∧ r ≤ r' := by
  have hinf (hnum : t'.number = .inf false) : getTime t' = some maxRep := by
    unfold getTime
    rw [hnum]
    rfl
  rcases getTime_some h with ⟨hnum, rfl⟩ | ⟨u, hu, hnum, rfl⟩
  · rw [hnum] at hle
    cases hnum' : t'.number with
    | nan =>
      rw [hnum'] at hle
      exact hle.elim
    | inf neg =>
      rw [hnum'] at hle
      cases neg with
      | true => exact hle.elim
      | false => exact ⟨maxRep, hinf hnum', Nat.le_refl _⟩
    | finite neg v =>
      rw [hnum'] at hle
      exact hle.elim
  · rw [hnum] at hle
    cases hnum' : t'.number with
    | nan =>
      rw [hnum'] at hle
      exact hle.elim
    | inf neg =>
      rw [hnum'] at hle
      cases neg with
      | true => exact hle.elim
      | false => exact ⟨maxRep, hinf hnum', rounded_le u⟩
    | finite neg v =>
      rw [hnum'] at hle
      cases neg with
      | true => exact absurd hle.1 (Nat.ne_of_gt hu)
      | false => exact ⟨rounded v, getTime_finite hnum' (Nat.lt_of_lt_of_le hu hle), rounded_mono hle⟩

/-- **Times.** `get_time` is empty exactly for what is not positive, and of what `validate` accepts only for a zero or a
NaN; else it returns the time in nanoseconds, up to the largest one, but for the rounding. It is monotone. -/
theorem get_time (t : Single) :
    (getTime t = none ↔ t.number.gtZero = false) ∧
    (t.ltZero = false → getTime t = none → t.number = .nan ∨ ∃ neg, t.number = .finite neg 0) ∧
    (∀ r, getTime t = some r →
      t.number = .inf false ∧ r = maxRep ∨ ∃ u, 0 < u ∧ t.number = .finite false u ∧ r ≤ maxRep ∧ Close r u) ∧
    ∀ t' r, t.number.le t'.number → getTime t = some r → ∃ r', getTime t' = some r' ∧ r ≤ r' := by
  refine ⟨getTime_none t, ?_, ?_, fun t' r => getTime_mono⟩
  · intro hlt hnone
    have hpos := (getTime_none t).1 hnone
    rcases number_of_not_ltZero hlt with hnan | hinf | hzero | ⟨u, hu, hfin⟩
    · exact Or.inl hnan
    · rw [hinf] at hpos
      cases hpos
    · exact Or.inr hzero
    · rw [hfin] at hpos
      exact absurd hu (of_decide_eq_false hpos)
  · intro r hr
    rcases getTime_some hr with hinf | ⟨u, hu, hnum, rfl⟩
    · exact Or.inl hinf
    · exact Or.inr ⟨u, hu, hnum, rounded_le u, rounded_close u⟩

/-- `0.1F` -/
example : getTime ⟨0x3DCCCCCD⟩ = some 100000000 := by decide +kernel

end Acppsrv.Config
