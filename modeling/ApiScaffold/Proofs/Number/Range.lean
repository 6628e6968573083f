import Mathlib
import ApiScaffold.Proofs.Check.Finished

/-! The range of doubles. The integer part of a double has at most 1024 bits, and so has every integer that
a double is near to; both are far too short to be refused when they are written. -/

namespace ApiScaffold

theorem twoTo_eq (n : Nat) : twoTo n = 2 ^ n := rfl

theorem twoTo_pos (n : Nat) : 0 < twoTo n := Nat.pow_pos two_pos

theorem twoTo_add (m n : Nat) : twoTo (m + n) = twoTo m * twoTo n := Nat.pow_add 2 m n

theorem twoTo_mono {m n : Nat} (h : m ≤ n) : twoTo m ≤ twoTo n := Nat.pow_le_pow_right two_pos h

theorem tenTo_pos (n : Nat) : 0 < tenTo n := Nat.pow_pos (by decide)

theorem tenTo_mono {m n : Nat} (h : m ≤ n) : tenTo m ≤ tenTo n := Nat.pow_le_pow_right (by decide) h

theorem twoTo_le_tenTo (n : Nat) : twoTo n ≤ tenTo n := Nat.pow_le_pow_left (by decide) n

namespace Binary64

/-- The significand and the exponent of a finite double are in range. -/
def IsDouble : Binary64 → Prop
  | .finite _ significand exponent =>
    significand < twoTo 53 ∧ leastExponent ≤ exponent ∧ exponent ≤ greatestExponent ∧
      (exponent = leastExponent ∨ twoTo 52 ≤ significand)
  | _ => True

instance : (x : Binary64) → Decidable x.IsDouble
  | .finite .. => inferInstanceAs (Decidable (_ ∧ _))
  | .infinity _ | .notANumber => inferInstanceAs (Decidable True)

theorem natAbs_num_mkRat_le (n d : Nat) : (mkRat n d).num.natAbs ≤ n := by
  rw [Rat.num_mkRat]
  split
  · exact Nat.zero_le n
  · rw [Int.natAbs_natCast, Int.natAbs_ediv_of_nonneg (Int.natCast_nonneg n)]
    exact Nat.div_le_self _ _

/-- The magnitude of a finite double. -/
def magnitude (significand : Nat) (exponent : Int) : Rat :=
  if exponent < 0 then mkRat significand (twoTo exponent.natAbs)
  else (significand * twoTo exponent.toNat : Nat)

theorem natAbs_num_magnitude_lt {significand : Nat} {exponent : Int} (hsignificand : significand < twoTo 53)
    (hexponent : exponent ≤ greatestExponent) : (magnitude significand exponent).num.natAbs < twoTo 1024 := by
  rw [magnitude]
  split
  · calc (mkRat significand (twoTo exponent.natAbs)).num.natAbs
        ≤ significand := natAbs_num_mkRat_le _ _
      _ < twoTo 53 := hsignificand
      _ ≤ twoTo 1024 := twoTo_mono (by decide)
  · have hlast : exponent.toNat ≤ 971 := by
      rw [greatestExponent] at hexponent
      omega
    rw [Rat.num_natCast, Int.natAbs_natCast]
    calc significand * twoTo exponent.toNat
        ≤ significand * twoTo 971 := Nat.mul_le_mul_left _ (twoTo_mono hlast)
      _ < twoTo 53 * twoTo 971 := Nat.mul_lt_mul_of_pos_right hsignificand (twoTo_pos 971)
      _ = twoTo 1024 := (twoTo_add 53 971).symm

theorem natAbs_truncate_lt {x : Binary64} (h : x.IsDouble) {n : Int} (hn : x.truncate? = some n) :
    n.natAbs < twoTo 1024 := by
  cases x with
  | infinity negative => cases hn
  | notANumber => cases hn
  | finite negative significand exponent =>
      obtain ⟨hsignificand, -, hexponent, -⟩ := h
      have hlt := natAbs_num_magnitude_lt hsignificand hexponent
      have hsigned : ∀ q : Rat, (if negative then -q else q).num.natAbs = q.num.natAbs := by
        intro q
        cases negative <;> simp
      rw [truncate?, value?, Option.map_some, Option.some.injEq] at hn
      rw [← hn, Int.natAbs_tdiv]
      refine lt_of_le_of_lt (Nat.div_le_self _ _) ?_
      rw [hsigned]
      exact hlt

end Binary64

/-- The number is an integer or a double. -/
def Number.InRange : Number → Prop
  | .int _ => True
  | .real x => x.IsDouble

instance : (n : Number) → Decidable n.InRange
  | .int _ => inferInstanceAs (Decidable True)
  | .real x => inferInstanceAs (Decidable x.IsDouble)

/-- Integers of up to 1024 bits can be written. -/
theorem hasIntegerText_of_lt {i : Int} (h : i.natAbs < twoTo 1024) : hasIntegerText i = true := by
  rw [hasIntegerText, decide_eq_true_eq]
  calc i.natAbs < twoTo 1024 := h
    _ ≤ tenTo 1024 := twoTo_le_tenTo 1024
    _ ≤ tenTo Number.digitLimit := tenTo_mono (by decide)

namespace Number

theorem doubleBound_le : doubleBound ≤ twoTo 1024 := by
  rw [doubleBound, twoTo_eq]
  exact Nat.sub_le _ _

theorem IsBelow.natAbs_lt {i : Int} (h : (Number.int i).IsBelow doubleBound) : i.natAbs < twoTo 1024 :=
  lt_of_lt_of_le h doubleBound_le

theorem IsBelow.hasText {n : Number} (h : n.IsBelow doubleBound) : n.hasText = true := by
  cases n with
  | int i => exact hasIntegerText_of_lt h.natAbs_lt
  | real x => rfl

/-- The integer part of a number that was compared as a double can be written. -/
theorem IsBelow.hasIntegerText_truncate {n : Number} (h : n.IsBelow doubleBound) (hrange : n.InRange)
    {i : Int} (hi : n.truncate = .ok i) : hasIntegerText i = true := by
  cases n with
  | int value =>
      rw [← Except.ok.inj hi]
      exact hasIntegerText_of_lt h.natAbs_lt
  | real x =>
      cases x with
      | infinity negative => cases hi
      | notANumber => cases hi
      | finite negative significand exponent =>
          exact hasIntegerText_of_lt
            (@Binary64.natAbs_truncate_lt (.finite negative significand exponent) hrange i
              (congrArg some (Except.ok.inj hi)))

end Number

end ApiScaffold
