import Mathlib
import ApiScaffold.Proofs.Number.Numeral
import ApiScaffold.Proofs.Number.Range

/-! The texts of doubles. The shortest digits of a positive double do not begin with a zero, so whichever way
they are laid out they make a numeral. -/

namespace ApiScaffold

open Numeral

namespace Binary64

/-! ### Shortest digits -/

namespace RoundingInterval

variable {r : RoundingInterval} {magnitude : Int} {digits : Nat}

theorem holds_zero (hlow : 0 < r.low) {denominator : Nat} (hdenominator : 0 < denominator) :
    r.holds 0 denominator = false := by
  have hpositive : 0 < r.low * denominator := Nat.mul_pos hlow hdenominator
  rw [holds, Nat.zero_mul]
  cases r.closed
  · simp
  · simp only [if_pos, Bool.and_eq_false_iff, decide_eq_false_iff_not]
    omega

/-- An interval of positive numbers has no candidate that is zero: zero itself is not in it, and the other
multiple of the unit is one step above. -/
theorem candidate?_ne_zero (hlow : 0 < r.low) {n : Nat} (h : r.candidate? magnitude digits = some n) :
    n ≠ 0 := by
  have hdown : 0 < if magnitude - digits < 0 then tenTo (magnitude - digits).natAbs else 1 := by
    split
    · exact tenTo_pos _
    · exact one_pos
  simp only [candidate?] at h
  generalize (if magnitude - digits < 0 then tenTo (magnitude - digits).natAbs else 1) = down at h hdown
  generalize (if magnitude - digits < 0 then 1 else tenTo (magnitude - digits).toNat) = up at h
  generalize r.mid * down / (r.denominator * up) = floor at h
  rcases Nat.eq_zero_or_pos floor with rfl | hfloor
  · rw [Nat.zero_mul, holds_zero hlow hdown] at h
    simp only [Bool.false_and, Bool.false_eq_true, if_false] at h
    split at h
    · rw [← Option.some.inj h]
      exact one_ne_zero
    · cases h
  · split_ifs at h <;> have hn := Option.some.inj h <;> omega

theorem search_ne_zero (hlow : 0 < r.low) (hmid : 0 < r.mid) (fuel : Nat) :
    (r.search magnitude fuel digits).1 ≠ 0 := by
  induction fuel generalizing digits with
  | zero => exact hmid.ne'
  | succ fuel ih =>
      rw [search]
      cases hcandidate : r.candidate? magnitude digits with
      | some n => exact candidate?_ne_zero hlow hcandidate
      | none => exact ih

end RoundingInterval

/-- Digits that do not begin with a zero. -/
structure IsLeading (digits : List Char) : Prop where
  isDigits : IsDigits digits
  first : ∃ c rest, digits = c :: rest ∧ c ≠ '0'

/-- Zeros at the end are dropped, so the first digit stays. -/
theorem isLeading_stripZeros {n : Nat} (h : n ≠ 0) : IsLeading (stripZeros n.repr.toList) := by
  have hfirst := head?_toDigits h
  rw [← Nat.toList_repr] at hfirst
  obtain ⟨c, rest, hdigits⟩ := List.exists_cons_of_ne_nil (repr_toList_ne_nil n)
  rw [hdigits, List.head?_cons, ne_eq, Option.some.injEq] at hfirst
  have hkept : stripZeros n.repr.toList <+: n.repr.toList := @List.rdropWhile_prefix _ _ _
  refine ⟨fun d hd => isDigits_repr n d (hkept.subset hd), ?_⟩
  cases hstripped : stripZeros n.repr.toList with
  | nil =>
      have hzeros := List.rdropWhile_eq_nil_iff.mp hstripped c (hdigits ▸ List.mem_cons_self)
      exact absurd (beq_iff_eq.mp hzeros) hfirst
  | cons d kept =>
      rw [hstripped, hdigits, List.cons_prefix_cons] at hkept
      exact ⟨d, kept, rfl, hkept.1 ▸ hfirst⟩

theorem isLeading_shortestDigits {significand : Nat} (h : significand ≠ 0) (exponent : Int) :
    IsLeading (shortestDigits significand exponent).1 := by
  have hup : 0 < if exponent < 0 then 1 else twoTo exponent.toNat := by
    split
    · exact one_pos
    · exact twoTo_pos _
  have hlow : 0 < (roundingInterval significand exponent).low := by
    refine Nat.mul_pos ?_ hup
    split <;> omega
  have hmid : 0 < (roundingInterval significand exponent).mid := Nat.mul_pos (by omega) hup
  exact isLeading_stripZeros (RoundingInterval.search_ne_zero hlow hmid 17)

/-! ### Layout -/

/-- What is written for digits is a numeral. Below one the zero before the point stands alone, from one on
the first digit begins the whole part, and with an exponent it is the whole part. -/
theorem exists_write {digits : List Char} (h : IsLeading digits) (exponent : Int) :
    ∃ m : Numeral, m.IsJson ∧ m.negative = false ∧ standardFormat.write digits exponent = m.chars := by
  obtain ⟨hdigits, c, rest, rfl, hc⟩ := h
  rw [DoubleFormat.write]
  split
  · split
    · have hfraction := isDigits_append (isDigits_replicate (exponent.natAbs - 1)) hdigits
      exact ⟨_, isJson_pointed (isDigits_replicate 1) (by simp) (fun _ => rfl) hfraction (by simp), rfl,
        by simp [chars]⟩
    · generalize exponent.toNat = last
      have hwhole : IsDigits ((c :: rest).take (last + 1) ++
          List.replicate (last + 1 - (c :: rest).length) '0') :=
        isDigits_append (fun d hd => hdigits d (List.mem_of_mem_take hd)) (isDigits_replicate _)
      have hfraction : IsDigits (if ((c :: rest).drop (last + 1)).isEmpty then ['0']
          else (c :: rest).drop (last + 1)) := by
        split
        · exact isDigits_replicate 1
        · exact fun d hd => hdigits d (List.mem_of_mem_drop hd)
      refine ⟨_, isJson_pointed hwhole (by simp) (fun hzero => ?_) hfraction ?_, rfl, ?_⟩
      · exact absurd (Option.some.inj hzero) hc
      · split
        · simp
        · simp_all
      · simp [chars]
  · have hpower : IsDigits (List.replicate
        (standardFormat.exponentDigits - exponent.natAbs.repr.toList.length) '0' ++
          exponent.natAbs.repr.toList) :=
      isDigits_append (isDigits_replicate _) (isDigits_repr _)
    have hsign : ['e', if exponent < 0 then '-' else '+'] ∈ exponentMarks := by
      split <;> simp [exponentMarks]
    refine ⟨_, isJson_exponential hdigits hsign hpower (by simp [Nat.toDigits_ne_nil]), rfl, ?_⟩
    cases rest <;> simp [chars]

/-- What is written for a finite double, without its sign. -/
def magnitudeText (significand : Nat) (exponent : Int) : List Char :=
  if significand = 0 then ['0', '.', '0']
  else
    standardFormat.write (shortestDigits significand exponent).1
      ((shortestDigits significand exponent).2 - 1)

theorem text_finite (negative : Bool) (significand : Nat) (exponent : Int) :
    (text (.finite negative significand exponent)).toList =
      (if negative then ['-'] else []) ++ magnitudeText significand exponent := by
  cases negative <;> exact String.toList_ofList

theorem exists_magnitudeText (significand : Nat) (exponent : Int) :
    ∃ m : Numeral, m.IsJson ∧ m.negative = false ∧ magnitudeText significand exponent = m.chars := by
  rw [magnitudeText]
  split
  · have hzero : IsDigits ['0'] := isDigits_replicate 1
    exact ⟨_, isJson_pointed hzero (by simp) (fun _ => rfl) hzero (by simp), rfl, rfl⟩
  · rename_i hne
    exact exists_write (isLeading_shortestDigits hne exponent) _

/-- A double is written as a numeral if it is finite. -/
theorem spells_text (negative : Bool) (significand : Nat) (exponent : Int) :
    Spells IsJson (text (.finite negative significand exponent)) := by
  obtain ⟨m, hm, hpositive, hmagnitude⟩ := exists_magnitudeText significand exponent
  refine ⟨{ m with negative := negative }, { hm with }, ?_⟩
  rw [text_finite, hmagnitude]
  simp [chars, hpositive]

end Binary64

namespace Number

/-- Whatever is not finite is written as a name. -/
theorem not_spells_text {n : Number} (h : n.isFinite = false) :
    ¬Spells IsSql n.text ∧ ¬Spells IsSql (Json.numberText n) := by
  cases n with
  | int i => cases h
  | real x =>
      cases x with
      | finite => cases h
      | notANumber => exact ⟨not_spells ⟨'n', by decide⟩, not_spells ⟨'N', by decide⟩⟩
      | infinity negative =>
          cases negative <;> exact ⟨not_spells ⟨'n', by decide⟩, not_spells ⟨'n', by decide⟩⟩

theorem spells_of_isFinite {n : Number} (h : n.isFinite = true) :
    Spells IsJson n.text ∧ Json.numberText n = n.text := by
  cases n with
  | int i => exact ⟨spells_integerText i, rfl⟩
  | real x =>
      cases x with
      | finite negative significand exponent =>
          exact ⟨Binary64.spells_text negative significand exponent, rfl⟩
      | infinity negative => cases h
      | notANumber => cases h

/-- **A number is written as a numeral exactly if it is finite**, in documents as in statements and code. -/
theorem spells_text_iff (n : Number) :
    (Spells IsJson (Json.numberText n) ↔ n.isFinite = true) ∧ (Spells IsCode n.text ↔ n.isFinite = true) ∧
      (Spells IsSql n.text ↔ n.isFinite = true) := by
  cases hfinite : n.isFinite with
  | true =>
      obtain ⟨htext, hsame⟩ := spells_of_isFinite hfinite
      exact ⟨iff_of_true (hsame ▸ htext) rfl, iff_of_true (htext.mono fun _ hm => hm.isCode) rfl,
        iff_of_true (htext.mono fun _ hm => hm.toIsSql) rfl⟩
  | false =>
      obtain ⟨htext, hnumber⟩ := not_spells_text hfinite
      exact ⟨iff_of_false (fun h => hnumber (h.mono fun _ hm => hm.toIsSql)) Bool.false_ne_true,
        iff_of_false (fun h => htext (h.mono fun _ hm => hm.toIsSql)) Bool.false_ne_true,
        iff_of_false htext Bool.false_ne_true⟩

end Number

end ApiScaffold
