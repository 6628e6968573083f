import Mathlib
import ApiScaffold.Number.Basic

/-! Integers that have a double near them. Rounding carries an integer beyond the finite doubles exactly
from half a step above the greatest of them. -/

namespace ApiScaffold

/-- Integers from this magnitude on round to infinity. -/
def doubleBound : Nat := 2 ^ 1024 - 2 ^ 970

theorem twoTo_succ (n : Nat) : twoTo (n + 1) = 2 * 2 ^ n := Nat.pow_succ'

namespace Binary64

/-- The scale of an integer leaves 52 bits behind the first one. -/
theorem scaleExponent_integer {n : Nat} (h : n ≠ 0) : scaleExponent n 1 = (Nat.log2 n : Int) - 52 := by
  have hlog : Nat.log2 1 = 0 := by decide
  have hreach : 2 ^ Nat.log2 n ≤ n := Nat.log2_self_le h
  rw [scaleExponent, hlog]
  simp only [twoTo, Nat.pow_eq, one_mul]
  by_cases hsmall : Nat.log2 n < 52
  · have hguess : ((Nat.log2 n : Int) - ((0 : Nat) : Int) - 52).natAbs = 52 - Nat.log2 n := by omega
    have hle : 2 ^ 52 ≤ n * 2 ^ (52 - Nat.log2 n) := by
      calc 2 ^ 52 = 2 ^ Nat.log2 n * 2 ^ (52 - Nat.log2 n) := by rw [← Nat.pow_add]; congr 1; omega
        _ ≤ n * 2 ^ (52 - Nat.log2 n) := Nat.mul_le_mul_right _ hreach
    rw [if_pos (by omega : (Nat.log2 n : Int) - ((0 : Nat) : Int) - 52 < 0), hguess,
      decide_eq_true hle, if_pos rfl, leastExponent]
    omega
  · have hguess : 52 + ((Nat.log2 n : Int) - ((0 : Nat) : Int) - 52).toNat = Nat.log2 n := by omega
    rw [if_neg (by omega : ¬(Nat.log2 n : Int) - ((0 : Nat) : Int) - 52 < 0), hguess,
      decide_eq_true hreach, if_pos rfl, leastExponent]
    omega

/-- A quotient by an even number rounds to less than an even limit exactly if it is more than half a step
below it: at half a step the odd quotient below the limit is rounded up. -/
theorem roundQuotient_lt {n half limit : Nat} (hhalf : 0 < half) (heven : limit % 2 = 0) :
    roundQuotient n (2 * half) < limit ↔ n + half < limit * (2 * half) := by
  have hsplit := Nat.div_add_mod n (2 * half)
  have hrest : n % (2 * half) < 2 * half := Nat.mod_lt n (by omega)
  rw [roundQuotient]
  generalize n / (2 * half) = quotient at *
  generalize n % (2 * half) = rest at *
  -- Only the quotient next to the limit can be rounded up to it.
  rcases Nat.lt_trichotomy (quotient + 1) limit with hbelow | hlast | habove
  · have hstep : 2 * half * (quotient + 2) ≤ limit * (2 * half) := by
      rw [Nat.mul_comm limit]
      exact Nat.mul_le_mul_left _ hbelow
    rw [Nat.mul_add] at hstep
    constructor
    · intro _
      omega
    · intro _
      split <;> omega
  · subst hlast
    rw [Nat.add_mul, Nat.mul_comm quotient]
    have hodd : quotient % 2 = 1 := by omega
    simp only [hodd, beq_self_eq_true, Bool.and_true, Bool.or_eq_true, decide_eq_true_eq, beq_iff_eq]
    split <;> omega
  · have hstep : limit * (2 * half) ≤ 2 * half * quotient := by
      rw [Nat.mul_comm limit]
      exact Nat.mul_le_mul_left _ (by omega)
    constructor
    · intro hlt
      split at hlt <;> omega
    · intro hlt
      omega

theorem isFinite_assemble (negative : Bool) (significand : Nat) (exponent : Int) :
    (assemble negative significand exponent).isFinite = true ↔
      (if significand < 2 ^ 53 then exponent else exponent + 1) ≤ 971 := by
  have hend : ∀ kept : Nat, ∀ scale : Int,
      (if greatestExponent < scale then infinity negative else finite negative kept scale).isFinite =
        true ↔ scale ≤ 971 := by
    intro kept scale
    rw [greatestExponent]
    split
    · rename_i hbeyond
      exact iff_of_false Bool.false_ne_true (by omega)
    · rename_i hwithin
      exact iff_of_true rfl (by omega)
  have hlimit : twoTo 53 = 2 ^ 53 := rfl
  rw [assemble, hlimit]
  by_cases hsmall : significand < 2 ^ 53
  · simp only [if_pos hsmall]
    exact hend significand exponent
  · simp only [if_neg hsmall]
    exact hend (significand / 2) (exponent + 1)

/-- An integer of 1024 bits is at the scale of the greatest doubles, where half a step is `2 ^ 970`. -/
theorem isFinite_ofFraction (negative : Bool) (n : Nat) :
    (ofFraction negative n 1).isFinite = true ↔ n < doubleBound := by
  have hhalf : 0 < 2 ^ 970 := pow_pos two_pos 970
  have hstep : twoTo (970 + 1) = 2 * 2 ^ 970 := twoTo_succ 970
  have hpower : 2 ^ 1023 = 2 ^ 53 * 2 ^ 970 := by rw [← Nat.pow_add]
  have hnext : 2 ^ 1024 = 2 ^ 54 * 2 ^ 970 := by rw [← Nat.pow_add]
  have hbound : doubleBound = 2 ^ 54 * 2 ^ 970 - 2 ^ 970 := by rw [doubleBound, hnext]
  by_cases hzero : n = 0
  · refine iff_of_true ?_ (by omega)
    rw [ofFraction, if_pos hzero]
    rfl
  · have hlog := Nat.log2_self_le hzero
    have hlog' := Nat.lt_log2_self (n := n)
    rw [ofFraction, if_neg hzero, scaleExponent_integer hzero, isFinite_assemble]
    -- With fewer bits there is room for a carry, with more there is no scale left. With just as many it
    -- depends on whether rounding carries.
    rcases Nat.lt_trichotomy (Nat.log2 n) 1023 with hbelow | hlast | habove
    · have hsmall : 2 ^ (Nat.log2 n + 1) ≤ 2 ^ 1023 := pow_le_pow_right₀ one_le_two hbelow
      refine iff_of_true ?_ (by omega)
      split <;> omega
    · rw [hlast] at hlog hlog' ⊢
      have hscale : roundAt n 1 (((1023 : Nat) : Int) - 52) = roundQuotient n (2 * 2 ^ 970) := by
        have hscale : (((1023 : Nat) : Int) - 52).toNat = 970 + 1 := by decide
        rw [roundAt, if_neg (by decide), hscale, hstep, one_mul]
      have hround := @roundQuotient_lt n (2 ^ 970) (2 ^ 53) hhalf (by decide)
      rw [hscale]
      by_cases hkept : roundQuotient n (2 * 2 ^ 970) < 2 ^ 53
      · rw [if_pos hkept]
        have hn := hround.mp hkept
        refine iff_of_true (by decide) ?_
        omega
      · rw [if_neg hkept]
        have hn := mt hround.mpr hkept
        refine iff_of_false (by decide) ?_
        omega
    · have hlarge : 2 ^ 1024 ≤ 2 ^ Nat.log2 n := pow_le_pow_right₀ one_le_two habove
      refine iff_of_false ?_ (by omega)
      split <;> omega

end Binary64

/-- An integer fits a double exactly if it is below the bound. -/
theorem Number.fitsDouble_iff (i : Int) : Number.fitsDouble i = true ↔ i.natAbs < doubleBound := by
  rw [← Binary64.isFinite_ofFraction (i < 0), fitsDouble, Binary64.ofInt?]
  cases (Binary64.ofFraction (i < 0) i.natAbs 1).isFinite <;> simp

end ApiScaffold
